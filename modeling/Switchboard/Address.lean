import Switchboard.Text.Numeral
import Switchboard.Text.Pieces

/-!
# Network addresses

An address is a host and a port. Hosts of four bytes are written in decimal with dots between
the bytes; hosts of eight groups are written in base sixteen with colons between the groups, the
first longest run of at least two zero groups left out, and stand in brackets in front of a port.
Behind such a host, a percent sign and a number may name the zone of the network that it is meant
in; zone zero is any zone, and is not written.
-/

namespace Switchboard

/-- A host. -/
inductive Host
  | v4 (a b c d : UInt8)
  | v6 (groups : Vector UInt16 8) (zone : UInt32)
  deriving DecidableEq, Repr

/-- A host and a port. -/
structure Address where
  host : Host
  port : UInt16
  deriving DecidableEq, Repr

namespace Host

/-! ## Writing -/

/-- Four bytes with dots between them. -/
def dotted (a b c d : Nat) : String :=
  ".".intercalate ([a, b, c, d].map Text.decimal)

/-- Groups with colons between them. -/
def colons (groups : List UInt16) : String :=
  ":".intercalate (groups.map fun g => String.ofList (Nat.toDigits 16 g.toNat))

/-- The number of zero groups in front. -/
def zeros (groups : List UInt16) : Nat := (groups.takeWhile (· == 0)).length

/-- The place and the length of the first longest run of zero groups, read on from place `at'`
with the best run so far. -/
def longestRun (at' : Nat) (best : Nat × Nat) : List UInt16 → Nat × Nat
  | [] => best
  | g :: gs =>
    let run := zeros (g :: gs)
    longestRun (at' + 1) (if best.2 < run then (at', run) else best) gs

/-- The text of eight groups. -/
def groupsText : List UInt16 → String
  | [0, 0, 0, 0, 0, 0xFFFF, g, h] =>
    "::ffff:" ++ dotted (g.toNat / 256) (g.toNat % 256) (h.toNat / 256) (h.toNat % 256)
  | groups =>
    let (start, run) := longestRun 0 (0, 0) groups
    if 1 < run then colons (groups.take start) ++ "::" ++ colons (groups.drop (start + run))
    else colons groups

/-- The text of a zone. -/
def zoneText (zone : UInt32) : String := if zone = 0 then "" else "%" ++ Text.decimal zone.toNat

/-- The text of a host. -/
def toText : Host → String
  | .v4 a b c d => dotted a.toNat b.toNat c.toNat d.toNat
  | .v6 groups zone => groupsText groups.toList ++ zoneText zone

/-! ## Reading -/

/-- A byte in decimal without zeros in front. -/
def byte? (cs : List Char) : Option UInt8 :=
  if cs.length = 0 ∨ 3 < cs.length ∨ (cs.head? = some '0' ∧ 1 < cs.length) then none
  else ((Text.readDigits cs).filter (· < 256)).map UInt8.ofNat

/-- Four bytes with dots between them. -/
def v4? (cs : List Char) : Option Host :=
  match (Text.pieces '.' cs).mapM byte? with
  | some [a, b, c, d] => some (.v4 a b c d)
  | _ => none

/-- A group in base sixteen. -/
def group? (cs : List Char) : Option UInt16 :=
  if cs.length = 0 ∨ 4 < cs.length then none
  else (cs.foldlM (fun n c => (Text.hexValue? c).map (n * 16 + ·)) 0).map UInt16.ofNat

/-- Groups with colons between them; at the end of a host the last two may be written as four
bytes. -/
def groups? (atEnd : Bool) : List (List Char) → Option (List UInt16)
  | [] => some []
  | [last] =>
    match if atEnd then v4? last else none with
    | some (.v4 a b c d) =>
      some [UInt16.ofNat (a.toNat * 256 + b.toNat), UInt16.ofNat (c.toNat * 256 + d.toNat)]
    | _ => (group? last).map ([·])
  | g :: gs => do return (← group? g) :: (← groups? atEnd gs)

/-- The groups of one side of a gap. -/
def side? (atEnd : Bool) (cs : List Char) : Option (List UInt16) :=
  if cs = [] then some [] else groups? atEnd (Text.pieces ':' cs)

/-- What stands before and after the first pair of colons, if there is one. -/
def splitGap : List Char → Option (List Char × List Char)
  | [] => none
  | c :: cs =>
    if [':', ':'].isPrefixOf (c :: cs) then some ([], cs.drop 1)
    else (splitGap cs).map fun (before, after) => (c :: before, after)

/-- What stands before and after the first percent sign, if there is one. -/
def splitZone (cs : List Char) : List Char × Option (List Char) :=
  match cs.dropWhile (· ≠ '%') with
  | [] => (cs, none)
  | _ :: zone => (cs.takeWhile (· ≠ '%'), some zone)

/-- A zone in decimal. -/
def zone? : Option (List Char) → Option UInt32
  | none => some 0
  | some cs => ((Text.readDigits cs).filter (· < 2 ^ 32)).map UInt32.ofNat

/-- Eight groups, some of which may be left out in one place, and perhaps a zone. -/
def v6? (text : List Char) : Option Host := do
  let (cs, zone) := splitZone text
  let zone ← zone? zone
  let groups ← match splitGap cs with
    | none => side? true cs
    | some (before, after) => do
      let head ← side? false before
      let tail ← side? true after
      if head.length + tail.length ≤ 7 then
        some (head ++ List.replicate (8 - head.length - tail.length) 0 ++ tail)
      else none
  if h : groups.length = 8 then some (.v6 ⟨groups.toArray, by simpa using h⟩ zone) else none

end Host

namespace Address

/-- The text of an address. -/
def toText (a : Address) : String :=
  let host := match a.host with
    | .v4 .. => a.host.toText
    | .v6 _ _ => "[" ++ a.host.toText ++ "]"
  host ++ ":" ++ Text.decimal a.port.toNat

/-- The address that a text means. -/
def ofText? (s : String) : Option Address := do
  let port ← Text.afterLast ':' s.toList
  let host := s.toList.dropLast.take (s.length - port.length - 1)
  let host ← match host with
    | '[' :: inner => if inner.getLast? = some ']' then Host.v6? inner.dropLast else none
    | host => Host.v4? host
  let port ← (Text.readDigits port).filter (· < 65536)
  return ⟨host, UInt16.ofNat port⟩

end Address

/-- The two ends of a connection know each other by the number that the server gave the
connection and by the address of the client. -/
structure Connection where
  id : Nat
  peer : Address
  deriving DecidableEq, Repr

end Switchboard
