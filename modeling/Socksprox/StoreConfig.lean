import Socksprox.Networks
import Socksprox.Settings
import Socksprox.Lib.Exec

/-!
`store_config` (`src/config.c`): what the settings of the configuration file become, and what the
values of the address keys are cut into on the way.

`getaddrinfo` and the allocator are a `Host`. The state of a computation is the list of the lookups
made so far.
-/

namespace Socksprox

def charSlash : UInt8 := 0x2F
def charUnderscore : UInt8 := 0x5F

/-! ### The outside -/

/-- A call of `getaddrinfo`: the address, and the service if one is given. -/
structure Lookup where
  node : List UInt8
  service : Option (List UInt8)
  deriving DecidableEq

/-- What a call of `store_config` finds outside. `getaddrinfo` is `none` where it fails. `malloc n`
says whether allocation `n` of the call succeeds, the two for a node counting as one, and `node n`
is what the memory of that node holds in the end. -/
structure Host where
  getaddrinfo : Lookup → Option (List AddrInfo)
  malloc : Nat → Bool
  node : Nat → Octets 24

/-- A computation that makes lookups, and may stop at a fault. -/
abbrev Storing (α : Type) : Type := Lib.Exec ConfigFault (List Lookup) α

def Host.ask (host : Host) (l : Lookup) : Storing (Option (List AddrInfo)) := do
  Lib.Exec.modify (· ++ [l])
  return host.getaddrinfo l

/-! ### Strings in arrays -/

/-- `memcpy` of `count` octets into an array of zeros. -/
def memcpy (n : Nat) (src : List UInt8) (count : Nat) : Except ConfigFault (Octets n) :=
  if src.length < count then .error .read
  else if n < count then .error .write
  else .ok (zeroFilled n (src.take count))

/-- The string a call reads in an array; without a terminator it reads on behind it. -/
def asString {n : Nat} (a : Octets n) : Except ConfigFault (List UInt8) :=
  if Terminated a then .ok (cString a) else .error .read

def strlen {n : Nat} (a : Octets n) : Except ConfigFault Nat := (asString a).map List.length

def isSpace (c : UInt8) : Bool := c == charSpace || (0x09 ≤ c && c ≤ 0x0D)

def isDigit (c : UInt8) : Bool := 0x30 ≤ c && c ≤ 0x39

/-- The number that decimal digits write. -/
def digitsValue (digits : List UInt8) : Nat :=
  digits.foldl (fun n c => 10 * n + (c.toNat - 0x30)) 0

/-- `strtol` to base 10: white space, a sign, digits, and whatever follows. It saturates. -/
def strtol (s : List UInt8) : Int :=
  match s.dropWhile isSpace with
  | 0x2D :: digits => max (-(digitsValue (digits.takeWhile isDigit) : Int)) (-2 ^ 63)
  | 0x2B :: digits => min (digitsValue (digits.takeWhile isDigit) : Int) (2 ^ 63 - 1)
  | digits => min (digitsValue (digits.takeWhile isDigit) : Int) (2 ^ 63 - 1)

/-- `atoi`, which cuts the long of `strtol` off to an int. -/
def atoi (s : List UInt8) : Int := (strtol s).bmod (2 ^ 32)

/-! ### Address values -/

/-- The first place of the delimiter, or 0. -/
def delimInd (delim : UInt8) (val : List UInt8) (valsz : Nat) : Nat :=
  ((val.take valsz).findIdx? fun c => c == delim).getD 0

/-- `addr_only_gai`; the null pointer is the empty list. -/
def addrOnlyGai (host : Host) (val : List UInt8) (valsz : Nat) : Storing (List AddrInfo) :=
  if 39 < valsz then return []
  else do
    let addr ← memcpy 39 val valsz
    if host.malloc 0 then
      let node ← asString addr
      let res ← host.ask ⟨node, none⟩
      return res.getD []
    else return []

/-- The loop over the results of `getaddrinfo`, from allocation `n` on: what the function returns,
and the list it leaves. -/
def linkNodes (host : Host) : Nat → List AddrInfo → List SockaddrLl → Int × List SockaddrLl
  | _, [], head => (0, head)
  | n, ai :: rest, head =>
    if host.malloc n then linkNodes host (n + 1) rest (⟨ai.aiAddr, host.node n⟩ :: head)
    else (-1, head)

def linkAddrsFromGai (host : Host) (ai : List AddrInfo) (head : List SockaddrLl) :
    Int × List SockaddrLl :=
  if ai = [] then (-1, head) else linkNodes host 1 ai head

def linkAddr (host : Host) (addrport : List UInt8) (addrportsz : Nat) (head : List SockaddrLl) :
    Storing (Int × List SockaddrLl) := do
  let delimind := delimInd charUnderscore addrport addrportsz
  let addr ← memcpy 39 addrport delimind
  let port ← memcpy 6 (addrport.drop (delimind + 1)) (addrportsz - delimind)
  let node ← asString addr
  let service ← asString port
  match ← host.ask ⟨node, some service⟩ with
  | none => return (-1, head)
  | some result => return linkNodes host 0 result head

/-! ### store_config -/

/-- The body of a branch for an address without a port. -/
def storeAddress (host : Host) (val : Octets valSize) (head : List SockaddrLl) :
    Storing (Int × List SockaddrLl) := do
  let valsz ← strlen val
  let ai ← addrOnlyGai host val.toList valsz
  return linkAddrsFromGai host ai head

def storeListen (host : Host) (val : Octets valSize) (head : List SockaddrLl) :
    Storing (Int × List SockaddrLl) := do
  let valsz ← strlen val
  linkAddr host val.toList valsz head

def storeBlock (host : Host) (val : Octets valSize) (head : List BlockaddrLl) :
    Storing (Int × List BlockaddrLl) := do
  let valsz ← strlen val
  let delimind := delimInd charSlash val.toList valsz
  let ai ← addrOnlyGai host val.toList delimind
  if ai = [] then return (-1, head)
  else linkBlocks (host.malloc 1) ai.head? (atoi (val.toList.drop (delimind + 1))) head

def yesCheck (val : Octets valSize) : Bool := cString val = typed "yes"

def methodParse (val : Octets valSize) : Option (Fin 255) :=
  if cString val = typed "no-auth" then some ⟨methNoauth.toNat, by decide⟩
  else if cString val = typed "gssapi" then some ⟨methGssapi.toNat, by decide⟩
  else if cString val = typed "username-password" then some ⟨methUserpw.toNat, by decide⟩
  else none

/-- `configs->methods[meth] = 1`, for a known method. -/
def methodSet (methods : Octets 255) : Option (Fin 255) → Octets 255
  | some meth => Function.update methods meth 1
  | none => methods

/-- What a branch returns for the result of the function it calls. -/
def failure (ret : Int) : Int := if ret ≠ 0 then -1 else 0

/-- All of `struct Configs`: the settings of the connections, and those that are used when the
server starts. -/
structure FileConfigs extends Configs where
  listenHead : List SockaddrLl
  aLog : Octets valSize
  eLog : Octets valSize
  maxConns : Int

/-- The settings before the configuration file is read, cleared by `memset`. -/
def FileConfigs.cleared : FileConfigs :=
  { Configs.cleared with listenHead := [], aLog := fun _ => 0, eLog := fun _ => 0, maxConns := 0 }

/-- `store_config`: what it returns, and the settings it leaves. -/
def storeConfig (host : Host) (setting : Setting) (configs : FileConfigs) :
    Storing (Int × FileConfigs) :=
  let key := cString setting.key
  let val := setting.val
  if key = typed "access-log" then return (0, { configs with aLog := val })
  else if key = typed "error-log" then return (0, { configs with eLog := val })
  else if key = typed "max-connections" then
    return (0, { configs with maxConns := atoi val.toList })
  else if key = typed "allow-domains" then return (0, { configs with allowDomains := yesCheck val })
  else if key = typed "allow-connect" then return (0, { configs with allowConnect := yesCheck val })
  else if key = typed "allow-bind" then return (0, { configs with allowBind := yesCheck val })
  else if key = typed "allow-udp-associate" then
    return (0, { configs with allowUdpassoc := yesCheck val })
  else if key = typed "method" then
    return (0, { configs with methods := methodSet configs.methods (methodParse val) })
  else if key = typed "bind-advertise-address" then do
    let r ← storeAddress host val configs.bindAdvertise
    return (failure r.1, { configs with bindAdvertise := r.2 })
  else if key = typed "bind-listen-address" then do
    let r ← storeAddress host val configs.bindListen
    return (failure r.1, { configs with bindListen := r.2 })
  else if key = typed "udp-advertise-address" then do
    let r ← storeAddress host val configs.udpaAdvertise
    return (failure r.1, { configs with udpaAdvertise := r.2 })
  else if key = typed "udp-listen-address" then do
    let r ← storeAddress host val configs.udpaListen
    return (failure r.1, { configs with udpaListen := r.2 })
  else if key = typed "listen" then do
    let r ← storeListen host val configs.listenHead
    return (failure r.1, { configs with listenHead := r.2 })
  else if key = typed "block" then do
    let r ← storeBlock host val configs.blockHead
    return (failure r.1, { configs with blockHead := r.2 })
  else return (0, configs)

end Socksprox
