import XiaoNet.Lib.Runs
import XiaoNet.Net.InetAddress

/-!
# The family of an `InetAddress`

The family stands in the union and in the flag `isIpV6`; `isIntranetIp` looks at the first and
`isLoopbackIp` at the second.

- `Ctor`, `Change`, `history`: how an address is constructed and changed.
- `Agrees`: flag and family agree, a loopback address is an intranet address, and
  `isLoopbackIp` knows every endpoint with a loopback IP.
- `InStep`, `Misflagged`: the two states a history can be in; the second begins with the
  constructor from a `sockaddr_in6` that holds an IPv4 address and ends with
  `setSockAddrInet6`.
- `agrees_iff`: `Agrees` holds at the end of a history exactly when it is not misflagged.
-/

namespace XiaoNet

/-- The IP address of an endpoint, in host order. -/
inductive Ip where
  | v4 (addr : UInt32)
  | v6 (words : Fin 4 → UInt32)

/-- 127.0.0.1, ::1 and ::ffff:127.0.0.1 -/
inductive Ip.IsLoopback : Ip → Prop where
  | v4 : IsLoopback (.v4 0x7f000001)
  | v6 : IsLoopback (.v6 ![0, 0, 0, 1])
  | mapped : IsLoopback (.v6 ![0, 0, 0xffff, 0x7f000001])

/-- A `sockaddr_in` holds an IPv4 address. -/
abbrev InetName := { addr : SockAddrIn // addr.sinFamily = afInet }

/-- A `sockaddr_in6` that holds an address of either family. -/
abbrev Inet6Name := { addr : SockAddrIn6 // addr.sin6Family = afInet ∨ addr.sin6Family = afInet6 }

/-- The family of a socket. -/
def SockName.family : SockName → UInt16
  | .inet _ _ => afInet
  | .inet6 _ _ _ _ => afInet6

namespace InetAddress

/-- The IP address of the endpoint, by its family. -/
def ip (a : InetAddress) : Option Ip :=
  if a.family = afInet then some (.v4 (ntohl a.ipNetEndian))
  else if a.family = afInet6 then some (.v6 fun i => ntohl (a.ip6NetEndian i))
  else none

/-- A constructor with its arguments. -/
inductive Ctor where
  | port (port : UInt16) (loopbackOnly ipv6 : Bool)
  | ip (ip : String) (port : UInt16) (ipv6 : Bool)
  | sockAddrIn (addr : InetName)
  | sockAddrIn6 (addr : Inet6Name)

/-- A member function that changes the address. -/
inductive Change where
  | setSockAddrInet6 (addr6 : Inet6Name)
  | setPortNetEndian (port : UInt16)

def build (net : InetPton) (raw : SockAddrIn6) : Ctor → InetAddress
  | .port port loopbackOnly ipv6 => ofPort raw port loopbackOnly ipv6
  | .ip ip port ipv6 => ofIp net raw ip port ipv6
  | .sockAddrIn addr => ofSockAddrIn raw addr.1
  | .sockAddrIn6 addr => ofSockAddrIn6 addr.1

def apply (a : InetAddress) : Change → InetAddress
  | .setSockAddrInet6 addr6 => a.setSockAddrInet6 addr6.1
  | .setPortNetEndian port => a.setPortNetEndian port

/-- An address that is constructed and then changed. -/
def history (net : InetPton) (raw : SockAddrIn6) (c : Ctor) (changes : List Change) :
    InetAddress :=
  Runs.run apply (build net raw c) changes

/-- The flag agrees with the family, and the classifiers with each other and with the IP. -/
structure Agrees (a : InetAddress) : Prop where
  flag : a.isIpV6 = true ↔ a.family = afInet6
  intranet : a.isLoopbackIp = true → a.isIntranetIp = true
  loopback : ∀ ip, a.ip = some ip → ip.IsLoopback → a.isLoopbackIp = true

/-! ## The classifiers -/

/-- The family is one of the two, and the flag says which. -/
structure InStep (a : InetAddress) : Prop where
  family : a.family = afInet ∨ a.family = afInet6
  flag : a.isIpV6 = true ↔ a.family = afInet6

/-- The flag says IPv6 and the family IPv4. -/
structure Misflagged (a : InetAddress) : Prop where
  family : a.family = afInet
  flag : a.isIpV6 = true

theorem afInet_ne : afInet ≠ afInet6 := by decide

theorem ntohl_eq_zero {v : UInt32} (h : ntohl v = 0) : v = 0 :=
  calc v = ntohl (ntohl v) := (ntohl_htonl v).symm
    _ = 0 := by
      rw [h]
      decide

variable {a : InetAddress}

theorem InStep.isIpV6_eq (h : a.InStep) (hfam : a.family = afInet) : a.isIpV6 = false := by
  cases hflag : a.isIpV6 with
  | false => rfl
  | true => exact absurd (hfam.symm.trans (h.flag.mp hflag)) afInet_ne

/-- What `isLoopbackIp` looks for when the flag says IPv6. -/
theorem isLoopbackIp_v6 (hflag : a.isIpV6 = true) :
    a.isLoopbackIp = true ↔
      (a.ip6NetEndian 0 = 0 ∧ a.ip6NetEndian 1 = 0 ∧ a.ip6NetEndian 2 = 0 ∧
        ntohl (a.ip6NetEndian 3) = 1) ∨
      (a.ip6NetEndian 0 = 0 ∧ a.ip6NetEndian 1 = 0 ∧ ntohl (a.ip6NetEndian 2) = 0xffff ∧
        ntohl (a.ip6NetEndian 3) = 0x7f000001) := by
  rw [isLoopbackIp, hflag, if_neg (by decide)]
  dsimp only
  split
  · rename_i hself
    exact iff_of_true rfl (.inl hself)
  · rename_i hself
    rw [or_iff_right hself]
    split
    · rename_i hmapped
      exact iff_of_true rfl hmapped
    · rename_i hmapped
      exact iff_of_false Bool.false_ne_true hmapped

/-- The IPv6 version of an IPv4 loopback address is in the ranges. -/
theorem isIntranetIp_mapped (hfam : a.family ≠ afInet) (h₀ : a.ip6NetEndian 0 = 0)
    (h₁ : a.ip6NetEndian 1 = 0) (h₂ : ntohl (a.ip6NetEndian 2) = 0xffff)
    (h₃ : ntohl (a.ip6NetEndian 3) = 0x7f000001) : a.isIntranetIp = true := by
  have hsite : ¬ (ntohl 0 &&& (0xffc00000 : UInt32) = 0xfec00000 ∨
      ntohl 0 &&& (0xffc00000 : UInt32) = 0xfe800000) := by
    decide
  have hone : ¬ ((0x7f000001 : UInt32) = 1) := by decide
  have hrange : intranetRange 0x7f000001 = true := by decide
  rw [isIntranetIp, if_neg hfam]
  dsimp only
  rw [h₀, h₁, h₂, h₃, if_neg fun h => hone h.2.2.2, if_neg hsite, if_pos ⟨rfl, rfl, rfl⟩, hrange]

theorem InStep.intranet (h : a.InStep) (hloop : a.isLoopbackIp = true) :
    a.isIntranetIp = true := by
  rcases h.family with hfam | hfam
  · rw [isLoopbackIp, h.isIpV6_eq hfam] at hloop
    have hip : ntohl a.ipNetEndian = 0x7f000001 := beq_iff_eq.mp hloop
    rw [isIntranetIp, if_pos hfam, hip]
    decide
  · have hne : a.family ≠ afInet := fun he => afInet_ne (he.symm.trans hfam)
    rw [isLoopbackIp_v6 (h.flag.mpr hfam)] at hloop
    rcases hloop with hself | ⟨h₀, h₁, h₂, h₃⟩
    · rw [isIntranetIp, if_neg hne]
      exact if_pos hself
    · exact isIntranetIp_mapped hne h₀ h₁ h₂ h₃

theorem InStep.loopback (h : a.InStep) {ip : Ip} (hip : a.ip = some ip) (hloop : ip.IsLoopback) :
    a.isLoopbackIp = true := by
  unfold InetAddress.ip at hip
  rcases h.family with hfam | hfam
  · rw [if_pos hfam] at hip
    have hv4 : ip = .v4 (ntohl a.ipNetEndian) := (Option.some.inj hip).symm
    rw [isLoopbackIp, h.isIpV6_eq hfam]
    cases hloop with
    | v4 => exact beq_iff_eq.mpr (Ip.v4.inj hv4).symm
    | v6 => cases hv4
    | mapped => cases hv4
  · have hne : a.family ≠ afInet := fun he => afInet_ne (he.symm.trans hfam)
    rw [if_neg hne, if_pos hfam] at hip
    have hv6 : ip = .v6 fun i => ntohl (a.ip6NetEndian i) := (Option.some.inj hip).symm
    rw [isLoopbackIp_v6 (h.flag.mpr hfam)]
    cases hloop with
    | v4 => cases hv6
    | v6 =>
      have hword : ∀ i, _ := congrFun (Ip.v6.inj hv6)
      exact .inl ⟨ntohl_eq_zero (hword 0).symm, ntohl_eq_zero (hword 1).symm,
        ntohl_eq_zero (hword 2).symm, (hword 3).symm⟩
    | mapped =>
      have hword : ∀ i, _ := congrFun (Ip.v6.inj hv6)
      exact .inr ⟨ntohl_eq_zero (hword 0).symm, ntohl_eq_zero (hword 1).symm,
        (hword 2).symm, (hword 3).symm⟩

theorem InStep.agrees (h : a.InStep) : a.Agrees :=
  ⟨h.flag, h.intranet, fun _ hip hloop => h.loopback hip hloop⟩

theorem Misflagged.not_agrees (h : a.Misflagged) : ¬ a.Agrees := fun hagrees =>
  afInet_ne (h.family.symm.trans (hagrees.flag.mp h.flag))

/-! ## Histories -/

/-- The constructor from a `sockaddr_in6` that holds an IPv4 address. -/
def Ctor.HoldsInet : Ctor → Prop
  | .sockAddrIn6 addr => addr.1.sin6Family = afInet
  | _ => False

/-- The change replaces the address. -/
def Change.Replaces : Change → Prop
  | .setSockAddrInet6 _ => True
  | .setPortNetEndian _ => False

theorem inStep_setIn (raw : SockAddrIn6) {addr : SockAddrIn} (hfam : addr.sinFamily = afInet)
    (isUnspecified : Bool) :
    InStep { addr6 := raw.setIn addr, isIpV6 := false, isUnspecified := isUnspecified } := by
  have hfamily : InetAddress.family
      { addr6 := raw.setIn addr, isIpV6 := false, isUnspecified := isUnspecified } = afInet :=
    hfam
  refine ⟨.inl hfamily, iff_of_false Bool.false_ne_true ?_⟩
  rw [hfamily]
  exact afInet_ne

theorem inStep_inet6 {addr6 : SockAddrIn6} (hfam : addr6.sin6Family = afInet6)
    (isUnspecified : Bool) :
    InStep { addr6 := addr6, isIpV6 := true, isUnspecified := isUnspecified } :=
  ⟨.inr hfam, iff_of_true rfl hfam⟩

theorem build_inStep (net : InetPton) (raw : SockAddrIn6) {c : Ctor} (hc : ¬ c.HoldsInet) :
    (build net raw c).InStep := by
  cases c with
  | port port loopbackOnly ipv6 =>
    cases ipv6 with
    | false => exact inStep_setIn raw rfl _
    | true => exact inStep_inet6 rfl _
  | ip ip port ipv6 =>
    cases ipv6 with
    | false =>
      cases hnet : net.inet ip with
      | none =>
        simp only [build, ofIp, hnet]
        exact inStep_setIn raw rfl _
      | some sAddr =>
        simp only [build, ofIp, hnet]
        exact inStep_setIn raw rfl _
    | true =>
      cases hnet : net.inet6 ip with
      | none =>
        simp only [build, ofIp, hnet]
        exact inStep_inet6 rfl _
      | some addr =>
        simp only [build, ofIp, hnet]
        exact inStep_inet6 rfl _
  | sockAddrIn addr => exact inStep_setIn raw addr.2 _
  | sockAddrIn6 addr => exact inStep_inet6 (addr.2.resolve_left hc) _

theorem build_misflagged (net : InetPton) (raw : SockAddrIn6) {c : Ctor} (hc : c.HoldsInet) :
    (build net raw c).Misflagged := by
  cases c with
  | sockAddrIn6 addr => exact ⟨hc, rfl⟩
  | port _ _ _ | ip _ _ _ | sockAddrIn _ => exact hc.elim

theorem apply_replaces (a : InetAddress) {change : Change} (h : change.Replaces) :
    (a.apply change).InStep := by
  cases change with
  | setSockAddrInet6 addr6 => exact ⟨addr6.2, decide_eq_true_iff⟩
  | setPortNetEndian port => exact h.elim

theorem apply_inStep (a : InetAddress) (change : Change) (h : a.InStep) :
    (a.apply change).InStep := by
  cases change with
  | setSockAddrInet6 addr6 => exact apply_replaces a trivial
  | setPortNetEndian port => exact ⟨h.family, h.flag⟩

theorem apply_misflagged (a : InetAddress) (change : Change) (h : a.Misflagged)
    (hkeep : ¬ change.Replaces) : (a.apply change).Misflagged := by
  cases change with
  | setSockAddrInet6 addr6 => exact absurd trivial hkeep
  | setPortNetEndian port => exact ⟨h.family, h.flag⟩

/-- **Family and flag, exactly**: whatever an address is constructed from and however it is
changed, its flag agrees with its family, a loopback address is an intranet address and every
endpoint with a loopback IP is known as one, if and only if it was not constructed from a
`sockaddr_in6` that holds an IPv4 address, or `setSockAddrInet6` has replaced that since. -/
theorem agrees_iff (net : InetPton) (raw : SockAddrIn6) (c : Ctor) (changes : List Change) :
    (history net raw c changes).Agrees ↔
      (c.HoldsInet → ∃ change ∈ changes, change.Replaces) := by
  by_cases hc : c.HoldsInet
  · rw [forall_prop_of_true hc]
    obtain ⟨hkeep, hmis⟩ | ⟨hkeep, hin⟩ := Runs.along_or_broken
      (G := fun _ change => ¬ change.Replaces) apply_misflagged
      (fun a _ _ hrep => apply_replaces a (not_not.mp hrep)) apply_inStep
      (build_misflagged net raw hc) changes
    · refine iff_of_false hmis.not_agrees ?_
      rintro ⟨change, hmem, hrep⟩
      exact Runs.mem_of_along hkeep change hmem hrep
    · refine iff_of_true hin.agrees ?_
      by_contra hnone
      exact hkeep (Runs.along_of_mem (fun change hmem hrep => hnone ⟨change, hmem, hrep⟩) _)
  · have hin : (history net raw c changes).InStep :=
      (Runs.always_of_step apply_inStep (build_inStep net raw hc) changes).last
    exact iff_of_true hin.agrees fun h => absurd h hc

/-- The addresses that `Acceptor`, `TcpServer::newConnection` and `TcpClient::newConnection`
take from a socket agree with themselves when it is an IPv6 socket. -/
theorem ofSocket_agrees_iff (name : SockName) :
    ((ofSockAddrIn6 (Socket.getLocalAddr (some name))).Agrees ↔ name.family = afInet6) ∧
      ((ofSockAddrIn6 (Socket.getPeerAddr (some name))).Agrees ↔ name.family = afInet6) := by
  cases name with
  | inet port sAddr =>
    have hmis : (ofSockAddrIn6 (SockName.write .zeroed (.inet port sAddr))).Misflagged :=
      ⟨rfl, rfl⟩
    exact ⟨iff_of_false hmis.not_agrees afInet_ne, iff_of_false hmis.not_agrees afInet_ne⟩
  | inet6 port flowinfo addr scopeId =>
    have hin : (ofSockAddrIn6 (SockName.write .zeroed
        (.inet6 port flowinfo addr scopeId))).InStep := inStep_inet6 rfl _
    exact ⟨iff_of_true hin.agrees rfl, iff_of_true hin.agrees rfl⟩

/-- The local address of a connection over IPv4 on the same host, as `TcpServer::newConnection`
takes it from its socket: the endpoint is 127.0.0.1, `isIpV6` holds, and it is no loopback
address. -/
theorem localAddr_misflagged :
    ∃ a, a = ofSockAddrIn6
          (Socket.getLocalAddr (some (.inet (htons 80) (htonl kInaddrLoopback)))) ∧
      a.ip = some (.v4 0x7f000001) ∧ a.family = afInet ∧ a.isIpV6 = true ∧
      a.isLoopbackIp = false ∧ a.isIntranetIp = true ∧ ¬ a.Agrees := by
  refine ⟨_, rfl, ?_, rfl, rfl, by decide, by decide, Misflagged.not_agrees ⟨rfl, rfl⟩⟩
  have hip : ntohl (htonl kInaddrLoopback) = 0x7f000001 := ntohl_htonl _
  exact hip ▸ if_pos rfl

end InetAddress

end XiaoNet
