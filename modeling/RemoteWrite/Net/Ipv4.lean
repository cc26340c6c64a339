import RemoteWrite.Text.Number

/-!
# IPv4 addresses
-/

namespace RemoteWrite

structure Ipv4 where
  first : UInt8
  second : UInt8
  third : UInt8
  fourth : UInt8
  deriving DecidableEq, Inhabited

namespace Ipv4

/-- One to three digits without superfluous zeros, as octal numbers would have. -/
def readOctet? (cs : List Char) : Option UInt8 :=
  if 3 < cs.length ∨ cs.head? = some '0' ∧ 1 < cs.length then none
  else ((Text.readNat? cs).filter (· < UInt8.size)).map UInt8.ofNat

def read? (cs : List Char) : Option Ipv4 := do
  match ← (cs.splitOn '.').mapM readOctet? with
  | [first, second, third, fourth] => return ⟨first, second, third, fourth⟩
  | _ => none

def text (ip : Ipv4) : String :=
  ".".intercalate ([ip.first, ip.second, ip.third, ip.fourth].map fun octet =>
    toString octet.toNat)

end Ipv4

end RemoteWrite
