import RemoteWrite.Net.Ipv4
import RemoteWrite.Text.Hex

/-!
# IPv6 addresses

Eight groups with colons between them. Two colons next to each other stand for one group of zeros or
more, once in an address, and the last two groups may be written as an IPv4 address. In writing, the
two colons stand for the first of the longest runs of zeros, if it has two groups at least, and the
IPv4 address appears where the groups before it are those that map one.
-/

namespace RemoteWrite

structure Ipv6 where
  groups : Vector UInt16 8
  deriving DecidableEq, Inhabited

namespace Ipv6

/-! ## Reading -/

def ofGroups? (groups : List UInt16) : Option Ipv6 :=
  if h : groups.length = 8 then some ⟨⟨groups.toArray, by simpa using h⟩⟩ else none

def readGroup? (cs : List Char) : Option UInt16 :=
  if cs.isEmpty ∨ 4 < cs.length then none else (Text.readHex? cs).map UInt16.ofNat

/-- Groups with colons between them, or none at all. -/
def readGroups? (cs : List Char) : Option (List UInt16) :=
  if cs.isEmpty then some [] else (cs.splitOn ':').mapM readGroup?

/-- The two groups that an IPv4 address makes. -/
def groupsOf (ip : Ipv4) : List UInt16 :=
  [UInt16.ofNat (256 * ip.first.toNat + ip.second.toNat),
    UInt16.ofNat (256 * ip.third.toNat + ip.fourth.toNat)]

/-- Groups at the end of an address, where an IPv4 address may stand for the last two. -/
def readLastGroups? (cs : List Char) : Option (List UInt16) :=
  let parts := cs.splitOn ':'
  match parts.getLast?.bind Ipv4.read? with
  | some ip => (parts.dropLast.mapM readGroup?).map (· ++ groupsOf ip)
  | none => readGroups? cs

/-- What stands before and after the first two colons that are next to each other. -/
def splitAtGap? : List Char → Option (List Char × List Char)
  | [] => none
  | ':' :: ':' :: cs => some ([], cs)
  | c :: cs => (splitAtGap? cs).map fun (before, after) => (c :: before, after)

def read? (cs : List Char) : Option Ipv6 :=
  match splitAtGap? cs with
  | none => (readLastGroups? cs).bind ofGroups?
  | some (before, after) => do
    let before ← readGroups? before
    let after ← readLastGroups? after
    let given := before.length + after.length
    if 8 ≤ given then none
    ofGroups? (before ++ List.replicate (8 - given) 0 ++ after)

/-! ## Writing -/

/-- Where the first of the longest runs of zeros starts, and how long it is. -/
def zeroRun (groups : List UInt16) : Nat × Nat :=
  (List.range groups.length).foldl (fun longest start =>
    let length := ((groups.drop start).takeWhile (· == 0)).length
    if longest.2 < length then (start, length) else longest) (0, 0)

/-- The IPv4 address that is mapped to an address. -/
def mapped? (ip : Ipv6) : Option Ipv4 :=
  match ip.groups.toList with
  | [0, 0, 0, 0, 0, 0xffff, high, low] =>
    some ⟨UInt8.ofNat (high.toNat / 256), UInt8.ofNat (high.toNat % 256),
      UInt8.ofNat (low.toNat / 256), UInt8.ofNat (low.toNat % 256)⟩
  | _ => none

def groupsText (groups : List UInt16) : String :=
  ":".intercalate (groups.map fun group => Text.hex group.toNat)

def text (ip : Ipv6) : String :=
  match ip.mapped? with
  | some v4 => "::ffff:" ++ v4.text
  | none =>
    let groups := ip.groups.toList
    let (start, length) := zeroRun groups
    if 2 ≤ length then
      groupsText (groups.take start) ++ "::" ++ groupsText (groups.drop (start + length))
    else groupsText groups

end Ipv6

end RemoteWrite
