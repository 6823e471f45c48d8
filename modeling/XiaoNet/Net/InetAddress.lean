import Mathlib.Data.Fin.VecNotation
import XiaoNet.Utils.MsgBufferInts

/-!
# `InetAddress`

The address of `net/InetAddress.{h,cpp}`: a union of a `sockaddr_in` and a `sockaddr_in6` and
two flags. The union is held as the longer of the two structures, `SockAddrIn6`; `asIn` reads
it and `setIn` writes it as the shorter one, whose address lies where the other has its flow
information and whose padding lies where the other has the first two words of its address.

A constructor that sets the shorter structure leaves the rest of the union as it was, `raw`.
Words of addresses are in network order, as in memory; `inet_pton` is a parameter.
-/

namespace XiaoNet

/-- `AF_INET` -/
def afInet : UInt16 := 2

/-- `AF_INET6` -/
def afInet6 : UInt16 := 10

/-- `struct sockaddr_in` -/
structure SockAddrIn where
  sinFamily : UInt16
  sinPort : UInt16
  sAddr : UInt32
  sinZero : Fin 2 → UInt32

/-- `struct sockaddr_in6` -/
structure SockAddrIn6 where
  sin6Family : UInt16
  sin6Port : UInt16
  sin6Flowinfo : UInt32
  s6Addr32 : Fin 4 → UInt32
  sin6ScopeId : UInt32

namespace SockAddrIn6

/-- `memset(&addr6, 0, sizeof(addr6))` -/
def zeroed : SockAddrIn6 := ⟨0, 0, 0, ![0, 0, 0, 0], 0⟩

/-- The union read as a `sockaddr_in`. -/
def asIn (a : SockAddrIn6) : SockAddrIn :=
  ⟨a.sin6Family, a.sin6Port, a.sin6Flowinfo, ![a.s6Addr32 0, a.s6Addr32 1]⟩

/-- A `sockaddr_in` written into the union. -/
def setIn (a : SockAddrIn6) (addr : SockAddrIn) : SockAddrIn6 :=
  { a with
    sin6Family := addr.sinFamily
    sin6Port := addr.sinPort
    sin6Flowinfo := addr.sAddr
    s6Addr32 := ![addr.sinZero 0, addr.sinZero 1, a.s6Addr32 2, a.s6Addr32 3] }

end SockAddrIn6

/-- `inet_pton(AF_INET, …)` and `inet_pton(AF_INET6, …)`; `none` when the string is no
address. -/
structure InetPton where
  inet : String → Option UInt32
  inet6 : String → Option (Fin 4 → UInt32)

/-- `InetAddress`; `addr6` is the union. -/
structure InetAddress where
  addr6 : SockAddrIn6
  isIpV6 : Bool := false
  isUnspecified : Bool := true

/-- 0.0.0.0 -/
def kInaddrAny : UInt32 := 0

/-- 127.0.0.1 -/
def kInaddrLoopback : UInt32 := 0x7f000001

def in6addrAny : Fin 4 → UInt32 := ![0, 0, 0, 0]

def in6addrLoopback : Fin 4 → UInt32 := ![0, 0, 0, htonl 1]

namespace InetAddress

/-! ## Constructors -/

/-- `InetAddress(port, loopbackOnly, ipv6)` -/
def ofPort (raw : SockAddrIn6) (port : UInt16) (loopbackOnly ipv6 : Bool) : InetAddress :=
  if ipv6 then
    { addr6 := { SockAddrIn6.zeroed with
        sin6Family := afInet6
        s6Addr32 := if loopbackOnly then in6addrLoopback else in6addrAny
        sin6Port := htons port }
      isIpV6 := ipv6
      isUnspecified := false }
  else
    { addr6 := raw.setIn
        { sinFamily := afInet
          sAddr := htonl (if loopbackOnly then kInaddrLoopback else kInaddrAny)
          sinPort := htons port
          sinZero := ![0, 0] }
      isIpV6 := ipv6
      isUnspecified := false }

/-- `InetAddress(ip, port, ipv6)` -/
def ofIp (net : InetPton) (raw : SockAddrIn6) (ip : String) (port : UInt16) (ipv6 : Bool) :
    InetAddress :=
  if ipv6 then
    let addr6 := { SockAddrIn6.zeroed with sin6Family := afInet6, sin6Port := htons port }
    match net.inet6 ip with
    | none => { addr6 := addr6, isIpV6 := ipv6 }
    | some addr =>
      { addr6 := { addr6 with s6Addr32 := addr }, isIpV6 := ipv6, isUnspecified := false }
  else
    let addr : SockAddrIn :=
      { sinFamily := afInet, sinPort := htons port, sAddr := 0, sinZero := ![0, 0] }
    match net.inet ip with
    | none => { addr6 := raw.setIn addr, isIpV6 := ipv6 }
    | some sAddr =>
      { addr6 := raw.setIn { addr with sAddr := sAddr }, isIpV6 := ipv6, isUnspecified := false }

/-- `InetAddress(const struct sockaddr_in &)` -/
def ofSockAddrIn (raw : SockAddrIn6) (addr : SockAddrIn) : InetAddress :=
  { addr6 := raw.setIn addr, isUnspecified := false }

/-- `InetAddress(const struct sockaddr_in6 &)` -/
def ofSockAddrIn6 (addr : SockAddrIn6) : InetAddress :=
  { addr6 := addr, isIpV6 := true, isUnspecified := false }

/-! ## Members -/

def family (a : InetAddress) : UInt16 := a.addr6.asIn.sinFamily

def ipNetEndian (a : InetAddress) : UInt32 := a.addr6.asIn.sAddr

def ip6NetEndian (a : InetAddress) : Fin 4 → UInt32 := a.addr6.s6Addr32

def setSockAddrInet6 (a : InetAddress) (addr6 : SockAddrIn6) : InetAddress :=
  { a with
    addr6 := addr6
    isIpV6 := addr6.sin6Family = afInet6
    isUnspecified := false }

def setPortNetEndian (a : InetAddress) (port : UInt16) : InetAddress :=
  { a with addr6 := a.addr6.setIn { a.addr6.asIn with sinPort := port } }

/-- The ranges that `isIntranetIp` looks for, in an IPv4 address and in the IPv6 version of
one. -/
def intranetRange (ipAddr : UInt32) : Bool :=
  (ipAddr ≥ 0x0A000000 && ipAddr ≤ 0x0AFFFFFF) ||
    (ipAddr ≥ 0xAC100000 && ipAddr ≤ 0xAC1FFFFF) ||
    (ipAddr ≥ 0xC0A80000 && ipAddr ≤ 0xC0A8FFFF) ||
    ipAddr == 0x7f000001

def isIntranetIp (a : InetAddress) : Bool :=
  if a.family = afInet then intranetRange (ntohl a.ipNetEndian)
  else
    let addrP := a.ip6NetEndian
    let i32 := ntohl (addrP 0) &&& (0xffc00000 : UInt32)
    if addrP 0 = 0 ∧ addrP 1 = 0 ∧ addrP 2 = 0 ∧ ntohl (addrP 3) = 1 then true
    else if i32 = 0xfec00000 ∨ i32 = 0xfe800000 then true
    else if addrP 0 = 0 ∧ addrP 1 = 0 ∧ ntohl (addrP 2) = 0xffff then
      -- the IPv6 version of an IPv4 IP address
      intranetRange (ntohl (addrP 3))
    else false

def isLoopbackIp (a : InetAddress) : Bool :=
  if !a.isIpV6 then ntohl a.ipNetEndian == 0x7f000001
  else
    let addrP := a.ip6NetEndian
    if addrP 0 = 0 ∧ addrP 1 = 0 ∧ addrP 2 = 0 ∧ ntohl (addrP 3) = 1 then true
    -- the IPv6 version of an IPv4 loopback address
    else if addrP 0 = 0 ∧ addrP 1 = 0 ∧ ntohl (addrP 2) = 0xffff ∧
      ntohl (addrP 3) = 0x7f000001 then true
    else false

end InetAddress

/-! ## Addresses of sockets -/

/-- What the kernel knows of an end of a connection, on an IPv4 or an IPv6 socket. -/
inductive SockName where
  | inet (port : UInt16) (sAddr : UInt32)
  | inet6 (port : UInt16) (flowinfo : UInt32) (addr : Fin 4 → UInt32) (scopeId : UInt32)

/-- What `getsockname` and `getpeername` write. -/
def SockName.write (addr : SockAddrIn6) : SockName → SockAddrIn6
  | .inet port sAddr => addr.setIn ⟨afInet, port, sAddr, ![0, 0]⟩
  | .inet6 port flowinfo addr scopeId => ⟨afInet6, port, flowinfo, addr, scopeId⟩

namespace Socket

/-- `Socket::getLocalAddr(sockfd)`; `none` is a call that fails. -/
def getLocalAddr (sockName : Option SockName) : SockAddrIn6 :=
  let localaddr := SockAddrIn6.zeroed
  match sockName with
  | none => localaddr
  | some name => name.write localaddr

/-- `Socket::getPeerAddr(sockfd)` -/
def getPeerAddr (peerName : Option SockName) : SockAddrIn6 :=
  let peeraddr := SockAddrIn6.zeroed
  match peerName with
  | none => peeraddr
  | some name => name.write peeraddr

end Socket

end XiaoNet
