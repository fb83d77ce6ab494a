import Mathlib.Data.Fintype.Pi

/-!
Addresses and the settings the server runs with (`include/config.h`).

The lists of the source are lists here, in link order. A `Sockaddr_ll` keeps the
bytes of its own node beside the address it points to, because `init_udpa` reads
them in place of the address.
-/

namespace Socksprox

/-- An array of `n` octets. -/
abbrev Octets (n : Nat) : Type := Fin n → UInt8

/-- `memcpy` of `n` octets out of a longer byte string, starting at `off`. -/
def octetsAt (n : Nat) (bytes : Nat → UInt8) (off : Nat) : Octets n := fun i => bytes (off + i)

/-- The octets in order. -/
def Octets.toList {n : Nat} (o : Octets n) : List UInt8 := List.ofFn o

@[simp] theorem Octets.length_toList {n : Nat} (o : Octets n) : o.toList.length = n := by
  simp [Octets.toList]

/-! ### Socket addresses -/

def afInet : Nat := 2
def afInet6 : Nat := 10

/-- A socket address, port and address in network byte order. `data` is the
`sa_data` of the families the server has no code for. -/
inductive SockAddr where
  | inet (port : Octets 2) (addr : Octets 4)
  | inet6 (port : Octets 2) (addr : Octets 16)
  | other (family : Nat) (data : Octets 14) (ne : family ≠ afInet ∧ family ≠ afInet6)
  deriving DecidableEq

/-- `sa_family`. -/
def SockAddr.family : SockAddr → Nat
  | .inet _ _ => afInet
  | .inet6 _ _ => afInet6
  | .other f _ _ => f

/-- The two bytes behind the family, where both IP families keep the port. -/
def SockAddr.port : SockAddr → Octets 2
  | .inet port _ => port
  | .inet6 port _ => port
  | .other _ data _ => fun i => data (i.castLE (by decide))

/-- One element of the list `getaddrinfo` returns. `ai_family` is the family of
`ai_addr`. -/
structure AddrInfo where
  aiAddr : SockAddr
  deriving DecidableEq

def AddrInfo.aiFamily (ai : AddrInfo) : Nat := ai.aiAddr.family

/-- A configured address; `node` is the list node's own memory: the next pointer,
the address length, padding and the pointer to the address. -/
structure SockaddrLl where
  sa : SockAddr
  node : Octets 24

/-! ### Block rules -/

/-- Both views of the netmask union. -/
structure Netmask where
  inet : UInt32
  inet6 : Octets 16

/-- A blocked network: its address, already masked, and its mask. -/
structure BlockaddrLl where
  netmask : Netmask
  sa : SockAddr

/-! ### The settings -/

def methNoauth : UInt8 := 0x00
def methGssapi : UInt8 := 0x01
def methUserpw : UInt8 := 0x02
def methNometh : UInt8 := 0xFF

structure Configs where
  allowDomains : Bool
  allowConnect : Bool
  allowBind : Bool
  allowUdpassoc : Bool
  /-- Identifier octets for authentication methods set to 1. -/
  methods : Octets 255
  /-- The byte that follows `methods` in memory. -/
  methodsEnd : UInt8
  bindAdvertise : List SockaddrLl
  bindListen : List SockaddrLl
  udpaAdvertise : List SockaddrLl
  udpaListen : List SockaddrLl
  blockHead : List BlockaddrLl

/-- The settings before the configuration file is read, cleared by `memset`. -/
def Configs.cleared : Configs :=
  { allowDomains := false, allowConnect := false, allowBind := false, allowUdpassoc := false
    methods := fun _ => 0, methodsEnd := 0, bindAdvertise := [], bindListen := []
    udpaAdvertise := [], udpaListen := [], blockHead := [] }

/-- The method table with "no authentication" switched on. -/
def noauthMethods : Octets 255 := fun i => if i.val = methNoauth.toNat then 1 else 0

/-- `configs->methods[i]`. The table has one entry fewer than there are octets, so
octet 255 reads the byte behind it. -/
def Configs.methodAt (cfg : Configs) (i : UInt8) : UInt8 :=
  if h : i.toNat < 255 then cfg.methods ⟨i.toNat, h⟩ else cfg.methodsEnd

end Socksprox
