import RemoteWrite.Net.Ipv6

/-!
# Socket addresses

An address of either kind with the number of a socket there. Around an IPv6 address stand brackets,
and within them it may end with a percent sign and the number of a zone; zone 0 is the one that is
not named.
-/

namespace RemoteWrite

inductive SocketAddress where
  | v4 (ip : Ipv4) (number : UInt16)
  | v6 (ip : Ipv6) (zone : UInt32) (number : UInt16)
  deriving DecidableEq, Inhabited

namespace SocketAddress

/-- A colon and digits. -/
def readNumber? : List Char → Option UInt16
  | ':' :: digits => ((Text.readNat? digits).filter (· < UInt16.size)).map UInt16.ofNat
  | _ => none

/-- A percent sign and digits, or nothing. -/
def readZone? : List Char → Option UInt32
  | [] => some 0
  | '%' :: digits => ((Text.readNat? digits).filter (· < UInt32.size)).map UInt32.ofNat
  | _ => none

def read? (text : String) : Option SocketAddress :=
  match text.toList with
  | '[' :: cs => do
    let (host, number) := cs.span (· ≠ ']')
    let (ip, zone) := host.span (· ≠ '%')
    return .v6 (← Ipv6.read? ip) (← readZone? zone) (← readNumber? (number.drop 1))
  | cs => do
    let (ip, number) := cs.span (· ≠ ':')
    return .v4 (← Ipv4.read? ip) (← readNumber? number)

def zoneText (zone : UInt32) : String := if zone = 0 then "" else "%" ++ toString zone.toNat

def text : SocketAddress → String
  | v4 ip number => ip.text ++ ":" ++ toString number.toNat
  | v6 ip zone number => "[" ++ ip.text ++ zoneText zone ++ "]:" ++ toString number.toNat

end SocketAddress

end RemoteWrite
