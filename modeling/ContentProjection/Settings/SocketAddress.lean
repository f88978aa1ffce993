import ContentProjection.Text.Hexadecimal
import ContentProjection.Text.Numeral
import ContentProjection.Text.Split

/-!
# Socket addresses

A host and the TCP number to listen on. An IPv4 host is four octets without
leading zeros. An IPv6 host stands in brackets: eight groups, of which one run
of zeros may be left out and the last two may be written as an IPv4 host, and
perhaps a zone after a percent sign. It is written with its longest run of at
least two zero groups left out, the first of equally long ones, in lower case
and without leading zeros; a host that embeds an IPv4 one is written with it.
-/
namespace ContentProjection

inductive Host where
  | v4 (a b c d : UInt8)
  | v6 (groups : List UInt16) (length_groups : groups.length = 8) (zone : UInt32)
  deriving DecidableEq, Repr

structure SocketAddress where
  host : Host
  portNumber : UInt16
  deriving DecidableEq, Repr

namespace Host

/-- One to three digits, no zero before others. -/
def octet? (cs : List Char) : Option UInt8 :=
  if 3 < cs.length || (cs.head? == some '0' && 1 < cs.length) then none
  else
    (Text.Numeral.natural? cs).bind fun n =>
      if h : n < UInt8.size then some (UInt8.ofNatLT n h) else none

def octets? (cs : List Char) : Option (UInt8 × UInt8 × UInt8 × UInt8) :=
  match (Text.splitOn '.' cs).mapM octet? with
  | some [a, b, c, d] => some (a, b, c, d)
  | _ => none

def ofV4? (cs : List Char) : Option Host :=
  (octets? cs).map fun (a, b, c, d) => v4 a b c d

/-- One to four hexadecimal digits. -/
def group? (cs : List Char) : Option UInt16 :=
  if 4 < cs.length then none else (Text.hexNumber? cs).map UInt16.ofNat

def pairOf (high low : UInt8) : UInt16 := high.toUInt16 * 0x100 + low.toUInt16

/-- The last part of a run of groups: a group, or an IPv4 host in place of two. -/
def lastGroups? (embeds : Bool) (cs : List Char) : Option (List UInt16) :=
  match group? cs with
  | some group => some [group]
  | none =>
    if embeds then (octets? cs).map fun (a, b, c, d) => [pairOf a b, pairOf c d] else none

/-- Groups joined by colons, none in an empty text. -/
def groups? (embeds : Bool) (cs : List Char) : Option (List UInt16) :=
  if cs.isEmpty then some []
  else do
    let parts := Text.splitOn ':' cs
    let front ← parts.dropLast.mapM group?
    let last ← lastGroups? embeds (← parts.getLast?)
    return front ++ last

/-- All eight groups, the zeros behind a double colon filled in. -/
def allGroups? (cs : List Char) : Option (List UInt16) :=
  match Text.splitWord? [':', ':'] cs with
  | none => groups? true cs
  | some (before, after) => do
    let head ← groups? false before
    let tail ← groups? true after
    if head.length + tail.length < 8 then
      return head ++ List.replicate (8 - (head.length + tail.length)) 0 ++ tail
    else none

def zone? (cs : List Char) : Option UInt32 :=
  (Text.Numeral.natural? cs).bind fun n =>
    if h : n < UInt32.size then some (UInt32.ofNatLT n h) else none

/-- What stands between the brackets of an IPv6 host. -/
def ofV6? (cs : List Char) : Option Host := do
  let (address, zone) ← match Text.splitFirst? '%' cs with
    | none => some (cs, 0)
    | some (address, rest) => (zone? rest).map fun zone => (address, zone)
  let groups ← allGroups? address
  if h : groups.length = 8 then some (v6 groups h zone) else none

def octetText (n : UInt8) : List Char := Nat.toDigits 10 n.toNat

def octetsText (a b c d : UInt8) : List Char :=
  ['.'].intercalate [octetText a, octetText b, octetText c, octetText d]

def groupsText (groups : List UInt16) : List Char :=
  [':'].intercalate (groups.map fun group => Nat.toDigits 16 group.toNat)

/-- Start and length of the first of the longest runs of zero groups. -/
def longestZeros (groups : List UInt16) : Nat × Nat :=
  (List.range groups.length).foldl (fun best start =>
    let length := ((groups.drop start).takeWhile (· = 0)).length
    if best.2 < length then (start, length) else best) (0, 0)

def highByte (group : UInt16) : UInt8 := (group / 0x100).toUInt8

def lowByte (group : UInt16) : UInt8 := group.toUInt8

def addressText (groups : List UInt16) : List Char :=
  match groups with
  | [0, 0, 0, 0, 0, 0xffff, x, y] =>
    "::ffff:".toList ++ octetsText (highByte x) (lowByte x) (highByte y) (lowByte y)
  | _ =>
    let (start, length) := longestZeros groups
    if length < 2 then groupsText groups
    else groupsText (groups.take start) ++ ':' :: ':' :: groupsText (groups.drop (start + length))

def text : Host → List Char
  | v4 a b c d => octetsText a b c d
  | v6 groups _ zone =>
    let zoneText := if zone = 0 then [] else '%' :: Nat.toDigits 10 zone.toNat
    '[' :: addressText groups ++ zoneText ++ [']']

end Host

namespace SocketAddress

def portNumber? (cs : List Char) : Option UInt16 :=
  (Text.Numeral.natural? cs).bind fun n =>
    if h : n < UInt16.size then some (UInt16.ofNatLT n h) else none

def ofChars? : List Char → Option SocketAddress
  | '[' :: cs => do
    let (address, rest) ← Text.splitFirst? ']' cs
    match rest with
    | ':' :: number => return ⟨← Host.ofV6? address, ← portNumber? number⟩
    | _ => none
  | cs => do
    let (address, number) ← Text.splitFirst? ':' cs
    return ⟨← Host.ofV4? address, ← portNumber? number⟩

def ofString? (s : String) : Option SocketAddress := ofChars? s.toList

def text (a : SocketAddress) : String :=
  String.ofList (a.host.text ++ ':' :: Nat.toDigits 10 a.portNumber.toNat)

/-- The same host with another number. -/
def withPortNumber (a : SocketAddress) (number : UInt16) : SocketAddress :=
  { a with portNumber := number }

end SocketAddress
end ContentProjection
