import Socksprox.Config

/-!
The constants of `include/socks.h` and `struct Info`, what the server knows about
one client's handshake.
-/

namespace Socksprox

def socks5Version : UInt8 := 0x05
def socks5Resv : UInt8 := 0x00

def atypIpv4 : UInt8 := 0x01
def atypDomn : UInt8 := 0x03
def atypIpv6 : UInt8 := 0x04

def cmdConn : UInt8 := 0x01
def cmdBind : UInt8 := 0x02
def cmdUdpa : UInt8 := 0x03

def repSuccess : UInt8 := 0x00
def repGenfail : UInt8 := 0x01
def repRuleset : UInt8 := 0x02
def repNunrech : UInt8 := 0x03
def repHunrech : UInt8 := 0x04
def repRefused : UInt8 := 0x05
def repTtlexpr : UInt8 := 0x06
def repBadcomm : UInt8 := 0x07
def repBadatyp : UInt8 := 0x08

/-- The value `rep` and the other octets of `Info` start with. -/
def repUnset : UInt8 := 0xFF

/-- The null pointers of the source are an empty list and `none`. -/
structure Info where
  method : UInt8
  rep : UInt8
  cmd : UInt8
  atyp : UInt8
  resolverRet : Int
  aiIndex : Nat
  ai : List AddrInfo
  sa : Option SockAddr
  deriving DecidableEq

/-- `Info` as `accept_new_client` fills it in. -/
def Info.fresh : Info :=
  { method := 0xFF, rep := repUnset, cmd := 0xFF, atyp := 0xFF, resolverRet := -1, aiIndex := 0
    ai := [], sa := none }

/-- `vercheck`, 1 being a failed check. -/
def vercheck (ver : UInt8) : Bool := decide (ver ≠ socks5Version)

end Socksprox
