import ChartLocker.Library.Network

/-!
# Addresses which must not be connected to

`is_forbidden_ip` tests octets and segments one range after the other.  The
addresses it allows are those outside a list of networks: for IPv6 the global
unicast ones, without two blocks and without the transition addresses which
embed a forbidden IPv4 address.
-/

namespace ChartLocker.Egress

open Library

structure Ipv4Addr where
  a : UInt8
  b : UInt8
  c : UInt8
  d : UInt8
deriving DecidableEq, Repr

/-- The segments of an IPv6 address. -/
structure Ipv6Addr where
  s0 : UInt16
  s1 : UInt16
  s2 : UInt16
  s3 : UInt16
  s4 : UInt16
  s5 : UInt16
  s6 : UInt16
  s7 : UInt16
deriving DecidableEq, Repr

inductive IpAddr where
  | v4 (address : Ipv4Addr)
  | v6 (address : Ipv6Addr)
deriving DecidableEq, Repr

namespace Ipv4Addr

variable (ip : Ipv4Addr)

def toNat : Nat :=
  ((ip.a.toNat * 2 ^ 8 + ip.b.toNat) * 2 ^ 8 + ip.c.toNat) * 2 ^ 8 +
    ip.d.toNat

def isPrivate : Bool :=
  ip.a == 10 || (ip.a == 172 && decide (16 ≤ ip.b ∧ ip.b ≤ 31)) ||
    (ip.a == 192 && ip.b == 168)

def isLoopback : Bool :=
  ip.a == 127

def isLinkLocal : Bool :=
  ip.a == 169 && ip.b == 254

def isMulticast : Bool :=
  decide (224 ≤ ip.a ∧ ip.a ≤ 239)

def isUnspecified : Bool :=
  ip.a == 0 && ip.b == 0 && ip.c == 0 && ip.d == 0

def isBroadcast : Bool :=
  ip.a == 255 && ip.b == 255 && ip.c == 255 && ip.d == 255

def isDocumentation : Bool :=
  (ip.a == 192 && ip.b == 0 && ip.c == 2) ||
    (ip.a == 198 && ip.b == 51 && ip.c == 100) ||
    (ip.a == 203 && ip.b == 0 && ip.c == 113)

end Ipv4Addr

/-- The arm of `is_forbidden_ip` for IPv4. -/
def isForbiddenV4 (ip : Ipv4Addr) : Bool :=
  ip.isPrivate || ip.isLoopback || ip.isLinkLocal || ip.isMulticast ||
    ip.isUnspecified || ip.a == 0 || ip.isBroadcast || ip.isDocumentation ||
    (ip.a == 100 && (ip.b &&& 0xc0) == 64) || decide (240 ≤ ip.a) ||
    (ip.a == 198 && (ip.b &&& 0xfe) == 18) ||
    (ip.a == 192 && ip.b == 0 && ip.c == 0)

namespace Ipv6Addr

variable (ip : Ipv6Addr)

def toNat : Nat :=
  ((((((ip.s0.toNat * 2 ^ 16 + ip.s1.toNat) * 2 ^ 16 + ip.s2.toNat) *
    2 ^ 16 + ip.s3.toNat) * 2 ^ 16 + ip.s4.toNat) * 2 ^ 16 + ip.s5.toNat) *
    2 ^ 16 + ip.s6.toNat) * 2 ^ 16 + ip.s7.toNat

def isLoopback : Bool :=
  ip == ⟨0, 0, 0, 0, 0, 0, 0, 1⟩

def isUnspecified : Bool :=
  ip == ⟨0, 0, 0, 0, 0, 0, 0, 0⟩

def isMulticast : Bool :=
  (ip.s0 &&& 0xff00) == 0xff00

end Ipv6Addr

/-- Two segments as an IPv4 address. -/
def ofSegments (high low : UInt16) : Ipv4Addr :=
  ⟨(high >>> 8).toUInt8, high.toUInt8, (low >>> 8).toUInt8, low.toUInt8⟩

def toIpv4Mapped (ip : Ipv6Addr) : Option Ipv4Addr :=
  if ip.s0 == 0 && ip.s1 == 0 && ip.s2 == 0 && ip.s3 == 0 && ip.s4 == 0 &&
      ip.s5 == 0xffff then
    some (ofSegments ip.s6 ip.s7)
  else
    none

def isLocalUseNat64 (ip : Ipv6Addr) : Bool :=
  ip.s0 == 0x0064 && ip.s1 == 0xff9b && ip.s2 == 0x0001

/-- The IPv4 address in a 6to4, NAT64 or IPv4-compatible address. -/
def embeddedV4 (ip : Ipv6Addr) : Option Ipv4Addr :=
  if ip.s0 == 0x2002 then
    some (ofSegments ip.s1 ip.s2)
  else if ip.s0 == 0x0064 && ip.s1 == 0xff9b && ip.s2 == 0 && ip.s3 == 0 &&
      ip.s4 == 0 && ip.s5 == 0 then
    some (ofSegments ip.s6 ip.s7)
  else if ip.s0 == 0 && ip.s1 == 0 && ip.s2 == 0 && ip.s3 == 0 &&
      ip.s4 == 0 && ip.s5 == 0 then
    some (ofSegments ip.s6 ip.s7)
  else
    none

def isUniqueLocal (ip : Ipv6Addr) : Bool :=
  (ip.s0 &&& 0xfe00) == 0xfc00

def isLinkLocalV6 (ip : Ipv6Addr) : Bool :=
  (ip.s0 &&& 0xffc0) == 0xfe80

def isSiteLocalV6 (ip : Ipv6Addr) : Bool :=
  (ip.s0 &&& 0xffc0) == 0xfec0

def isGlobalUnicastV6 (ip : Ipv6Addr) : Bool :=
  (ip.s0 &&& 0xe000) == 0x2000 &&
    (ip.s0 != 0x2001 || (ip.s1 != 0x0db8 && decide (0x0200 ≤ ip.s1)))

/-- The arm of `is_forbidden_ip` for IPv6. -/
def isForbiddenV6 (ip : Ipv6Addr) : Bool :=
  ip.isLoopback || ip.isMulticast || ip.isUnspecified || isUniqueLocal ip ||
    isLinkLocalV6 ip || isSiteLocalV6 ip ||
    (toIpv4Mapped ip).any isForbiddenV4 || (embeddedV4 ip).any isForbiddenV4 ||
    isLocalUseNat64 ip || !isGlobalUnicastV6 ip

def isForbiddenIp : IpAddr → Bool
  | .v4 ip => isForbiddenV4 ip
  | .v6 ip => isForbiddenV6 ip

/-! ## The networks -/

/-- An IPv4 network in the usual notation. -/
def network4 (a b c d length : Nat) : Network 32 :=
  ⟨((a * 2 ^ 8 + b) * 2 ^ 8 + c) * 2 ^ 8 + d, length⟩

def forbiddenNetworks : List (Network 32) :=
  [network4 0 0 0 0 8, network4 10 0 0 0 8, network4 100 64 0 0 10,
    network4 127 0 0 0 8, network4 169 254 0 0 16, network4 172 16 0 0 12,
    network4 192 0 0 0 24, network4 192 0 2 0 24, network4 192 168 0 0 16,
    network4 198 18 0 0 15, network4 198 51 100 0 24,
    network4 203 0 113 0 24, network4 224 0 0 0 4, network4 240 0 0 0 4]

section Octets

variable (ip : Ipv4Addr)

theorem contains_first (n : Nat) :
    (network4 n 0 0 0 8).Contains ip.toNat ↔ ip.a.toNat = n := by
  have b := ip.b.toNat_lt
  have c := ip.c.toNat_lt
  have d := ip.d.toNat_lt
  simp only [Network.Contains, network4, Ipv4Addr.toNat]
  omega

/-- A network which cuts the first octet. -/
theorem contains_within_first (n : Nat) :
    (network4 (n * 16) 0 0 0 4).Contains ip.toNat ↔
      ip.a.toNat / 16 = n := by
  have b := ip.b.toNat_lt
  have c := ip.c.toNat_lt
  have d := ip.d.toNat_lt
  simp only [Network.Contains, network4, Ipv4Addr.toNat]
  omega

theorem contains_second (n : Nat) {m : Nat} (octet : m < 256) :
    (network4 n m 0 0 16).Contains ip.toNat ↔
      ip.a.toNat = n ∧ ip.b.toNat = m := by
  have b := ip.b.toNat_lt
  have c := ip.c.toNat_lt
  have d := ip.d.toNat_lt
  simp only [Network.Contains, network4, Ipv4Addr.toNat]
  omega

theorem contains_third (n : Nat) {m k : Nat} (second : m < 256)
    (third : k < 256) :
    (network4 n m k 0 24).Contains ip.toNat ↔
      ip.a.toNat = n ∧ ip.b.toNat = m ∧ ip.c.toNat = k := by
  have b := ip.b.toNat_lt
  have c := ip.c.toNat_lt
  have d := ip.d.toNat_lt
  simp only [Network.Contains, network4, Ipv4Addr.toNat]
  omega

/-- Networks which cut the second octet. -/
theorem contains_within_second :
    ((network4 100 64 0 0 10).Contains ip.toNat ↔
      ip.a.toNat = 100 ∧ ip.b.toNat / 64 = 1) ∧
    ((network4 172 16 0 0 12).Contains ip.toNat ↔
      ip.a.toNat = 172 ∧ ip.b.toNat / 16 = 1) ∧
    ((network4 198 18 0 0 15).Contains ip.toNat ↔
      ip.a.toNat = 198 ∧ ip.b.toNat / 2 = 9) := by
  have b := ip.b.toNat_lt
  have c := ip.c.toNat_lt
  have d := ip.d.toNat_lt
  simp only [Network.Contains, network4, Ipv4Addr.toNat]
  refine ⟨?_, ?_, ?_⟩ <;> omega

/-- The masks of `is_forbidden_ip`. -/
theorem masked_second :
    ((ip.b &&& 0xc0 = 64) ↔ ip.b.toNat / 64 = 1) ∧
      ((ip.b &&& 0xfe = 18) ↔ ip.b.toNat / 2 = 9) := by
  have small : ip.b.toNat < 2 ^ 8 := ip.b.toNat_lt
  constructor
  · rw [← UInt8.toNat_inj, UInt8.toNat_and]
    exact @and_upper_bits_eq _ 1 8 6 small (by decide)
  · rw [← UInt8.toNat_inj, UInt8.toNat_and]
    exact @and_upper_bits_eq _ 9 8 1 small (by decide)

/-! ## The clauses as networks -/

theorem isPrivate_iff : ip.isPrivate = true ↔
    (network4 10 0 0 0 8).Contains ip.toNat ∨
      (network4 172 16 0 0 12).Contains ip.toNat ∨
      (network4 192 168 0 0 16).Contains ip.toNat := by
  rw [contains_first, (contains_within_second ip).2.1,
    contains_second ip 192 (by decide)]
  simp only [Ipv4Addr.isPrivate, Bool.or_eq_true, Bool.and_eq_true, beq_iff_eq,
    decide_eq_true_eq, ← UInt8.toNat_inj, UInt8.le_iff_toNat_le]
  have b := ip.b.toNat_lt
  simp only [UInt8.reduceToNat]
  omega

theorem isLoopback_iff : ip.isLoopback = true ↔
    (network4 127 0 0 0 8).Contains ip.toNat := by
  rw [contains_first, Ipv4Addr.isLoopback, beq_iff_eq, ← UInt8.toNat_inj]
  exact Iff.rfl

theorem isLinkLocal_iff : ip.isLinkLocal = true ↔
    (network4 169 254 0 0 16).Contains ip.toNat := by
  rw [contains_second ip 169 (by decide), Ipv4Addr.isLinkLocal,
    Bool.and_eq_true, beq_iff_eq, beq_iff_eq, ← UInt8.toNat_inj,
    ← UInt8.toNat_inj]
  exact Iff.rfl

theorem isMulticast_iff : ip.isMulticast = true ↔
    (network4 224 0 0 0 4).Contains ip.toNat := by
  rw [contains_within_first ip 14]
  simp only [Ipv4Addr.isMulticast, decide_eq_true_eq, UInt8.le_iff_toNat_le,
    UInt8.reduceToNat]
  omega

theorem isDocumentation_iff : ip.isDocumentation = true ↔
    (network4 192 0 2 0 24).Contains ip.toNat ∨
      (network4 198 51 100 0 24).Contains ip.toNat ∨
      (network4 203 0 113 0 24).Contains ip.toNat := by
  rw [contains_third ip 192 (by decide) (by decide),
    contains_third ip 198 (by decide) (by decide),
    contains_third ip 203 (by decide) (by decide)]
  simp only [Ipv4Addr.isDocumentation, Bool.or_eq_true, Bool.and_eq_true,
    beq_iff_eq, ← UInt8.toNat_inj, UInt8.reduceToNat, and_assoc, or_assoc]

/-- The whole of `0.0.0.0/8`, not only the unspecified address. -/
theorem thisNetwork_iff : (ip.isUnspecified || ip.a == 0) = true ↔
    (network4 0 0 0 0 8).Contains ip.toNat := by
  rw [contains_first]
  simp only [Ipv4Addr.isUnspecified, Bool.or_eq_true, Bool.and_eq_true,
    beq_iff_eq, ← UInt8.toNat_inj, UInt8.reduceToNat]
  omega

theorem reserved_iff : (ip.isBroadcast || decide (240 ≤ ip.a)) = true ↔
    (network4 240 0 0 0 4).Contains ip.toNat := by
  have a := ip.a.toNat_lt
  rw [contains_within_first ip 15]
  simp only [Ipv4Addr.isBroadcast, Bool.or_eq_true, Bool.and_eq_true,
    beq_iff_eq, decide_eq_true_eq, ← UInt8.toNat_inj, UInt8.le_iff_toNat_le,
    UInt8.reduceToNat]
  omega

theorem sharedSpace_iff : (ip.a == 100 && (ip.b &&& 0xc0) == 64) = true ↔
    (network4 100 64 0 0 10).Contains ip.toNat := by
  rw [(contains_within_second ip).1, Bool.and_eq_true, beq_iff_eq, beq_iff_eq,
    (masked_second ip).1, ← UInt8.toNat_inj]
  exact Iff.rfl

theorem benchmarking_iff : (ip.a == 198 && (ip.b &&& 0xfe) == 18) = true ↔
    (network4 198 18 0 0 15).Contains ip.toNat := by
  rw [(contains_within_second ip).2.2, Bool.and_eq_true, beq_iff_eq,
    beq_iff_eq, (masked_second ip).2, ← UInt8.toNat_inj]
  exact Iff.rfl

theorem assignments_iff : (ip.a == 192 && ip.b == 0 && ip.c == 0) = true ↔
    (network4 192 0 0 0 24).Contains ip.toNat := by
  rw [contains_third ip 192 (by decide) (by decide), Bool.and_eq_true,
    Bool.and_eq_true, beq_iff_eq, beq_iff_eq, beq_iff_eq, ← UInt8.toNat_inj,
    ← UInt8.toNat_inj, ← UInt8.toNat_inj, and_assoc]
  exact Iff.rfl

/-- The clauses of the IPv4 arm are fourteen networks. -/
theorem isForbiddenV4_iff : isForbiddenV4 ip = true ↔
    ∃ network ∈ forbiddenNetworks, network.Contains ip.toNat := by
  have thisNetwork := thisNetwork_iff ip
  have reserved := reserved_iff ip
  simp only [Bool.or_eq_true] at thisNetwork reserved
  simp only [isForbiddenV4, Bool.or_eq_true, isPrivate_iff, isLoopback_iff,
    isLinkLocal_iff, isMulticast_iff, isDocumentation_iff, sharedSpace_iff,
    benchmarking_iff, assignments_iff, forbiddenNetworks, List.mem_cons,
    List.not_mem_nil, or_false, exists_eq_or_imp, exists_eq_left]
  rw [← thisNetwork, ← reserved]
  grind only

end Octets

/-! ## IPv6 -/

/-- An IPv6 network of which only the first two segments are not zero. -/
def network6 (s0 s1 length : Nat) : Network 128 :=
  ⟨(s0 * 2 ^ 16 + s1) * 2 ^ 96, length⟩

def globalUnicast : Network 128 := network6 0x2000 0 3

def protocolAssignments : Network 128 := network6 0x2001 0 23

def documentation : Network 128 := network6 0x2001 0x0db8 32

def sixToFour : Network 128 := network6 0x2002 0 16

section Segments

variable (ip : Ipv6Addr)

/-- The first segments of an address, and the two behind the first one. -/
theorem toNat_segments :
    ip.toNat / 2 ^ 125 = ip.s0.toNat / 2 ^ 13 ∧
      ip.toNat / 2 ^ 112 = ip.s0.toNat ∧
      ip.toNat / 2 ^ 96 = ip.s0.toNat * 2 ^ 16 + ip.s1.toNat ∧
      ip.toNat / 2 ^ 80 =
        (ip.s0.toNat * 2 ^ 16 + ip.s1.toNat) * 2 ^ 16 + ip.s2.toNat := by
  have s1 := ip.s1.toNat_lt
  have s2 := ip.s2.toNat_lt
  have s3 := ip.s3.toNat_lt
  have s4 := ip.s4.toNat_lt
  have s5 := ip.s5.toNat_lt
  have s6 := ip.s6.toNat_lt
  have s7 := ip.s7.toNat_lt
  unfold Ipv6Addr.toNat
  refine ⟨?_, ?_, ?_, ?_⟩ <;> omega

theorem globalUnicast_iff : globalUnicast.Contains ip.toNat ↔
    ip.s0 &&& 0xe000 = 0x2000 := by
  have small : ip.s0.toNat < 2 ^ 16 := ip.s0.toNat_lt
  rw [← UInt16.toNat_inj, UInt16.toNat_and]
  apply Iff.trans _ (@and_upper_bits_eq _ 1 16 13 small (by decide)).symm
  rw [← (toNat_segments ip).1]
  exact Iff.rfl

theorem protocolAssignments_iff : protocolAssignments.Contains ip.toNat ↔
    ip.s0 = 0x2001 ∧ ip.s1 < 0x0200 := by
  have s1 := ip.s1.toNat_lt
  have second := (toNat_segments ip).2.2.1
  rw [← UInt16.toNat_inj, UInt16.lt_iff_toNat_lt]
  simp only [Network.Contains, protocolAssignments, network6,
    UInt16.reduceToNat]
  omega

theorem documentation_iff : documentation.Contains ip.toNat ↔
    ip.s0 = 0x2001 ∧ ip.s1 = 0x0db8 := by
  have s1 := ip.s1.toNat_lt
  have second := (toNat_segments ip).2.2.1
  rw [← UInt16.toNat_inj, ← UInt16.toNat_inj]
  simp only [Network.Contains, documentation, network6, UInt16.reduceToNat]
  omega

theorem sixToFour_iff : sixToFour.Contains ip.toNat ↔ ip.s0 = 0x2002 := by
  have first := (toNat_segments ip).2.1
  rw [← UInt16.toNat_inj]
  simp only [Network.Contains, sixToFour, network6, UInt16.reduceToNat]
  omega

end Segments

theorem octets_of_segment (segment : UInt16) :
    (segment >>> 8).toUInt8.toNat * 2 ^ 8 + segment.toUInt8.toNat =
      segment.toNat := by
  have small := segment.toNat_lt
  have upper : (segment >>> 8).toUInt8.toNat = segment.toNat / 2 ^ 8 := by
    rw [UInt16.toNat_toUInt8, UInt16.toNat_shiftRight,
      Nat.shiftRight_eq_div_pow]
    simp only [UInt16.reduceToNat, Nat.reduceMod]
    omega
  rw [upper, UInt16.toNat_toUInt8]
  omega

theorem toNat_ofSegments (high low : UInt16) :
    (ofSegments high low).toNat = high.toNat * 2 ^ 16 + low.toNat := by
  have combine (first third fourth : Nat) :
      (first * 2 ^ 8 + third) * 2 ^ 8 + fourth =
        first * 2 ^ 16 + (third * 2 ^ 8 + fourth) := by omega
  rw [← octets_of_segment high, ← octets_of_segment low]
  exact combine _ _ _

/-- The IPv4 address of a 6to4 address, behind its first segment. -/
def sixToFourV4 (number : Nat) : Nat :=
  number / 2 ^ 80 % 2 ^ 32

theorem toNat_sixToFour (ip : Ipv6Addr) :
    (ofSegments ip.s1 ip.s2).toNat = sixToFourV4 ip.toNat := by
  have s1 := ip.s1.toNat_lt
  have s2 := ip.s2.toNat_lt
  rw [toNat_ofSegments, sixToFourV4, (toNat_segments ip).2.2.2]
  omega

/-! ## What is allowed -/

/-- An address which the egress may connect to: a public IPv4 address, or a
global unicast IPv6 address which is no 6to4 address of another one. -/
def Permitted : IpAddr → Prop
  | .v4 ip => ∀ network ∈ forbiddenNetworks, ¬ network.Contains ip.toNat
  | .v6 ip =>
      globalUnicast.Contains ip.toNat ∧
        ¬ protocolAssignments.Contains ip.toNat ∧
        ¬ documentation.Contains ip.toNat ∧
        (sixToFour.Contains ip.toNat → ∀ network ∈ forbiddenNetworks,
          ¬ network.Contains (sixToFourV4 ip.toNat))

theorem isGlobalUnicastV6_iff (ip : Ipv6Addr) : isGlobalUnicastV6 ip = true ↔
    globalUnicast.Contains ip.toNat ∧
      ¬ protocolAssignments.Contains ip.toNat ∧
      ¬ documentation.Contains ip.toNat := by
  rw [globalUnicast_iff, protocolAssignments_iff, documentation_iff]
  simp only [isGlobalUnicastV6, Bool.and_eq_true, Bool.or_eq_true, beq_iff_eq,
    bne_iff_ne, ne_eq, decide_eq_true_eq, ← UInt16.not_lt]
  grind only

theorem isForbiddenV4_eq_false_iff (ip : Ipv4Addr) :
    isForbiddenV4 ip = false ↔
      ∀ network ∈ forbiddenNetworks, ¬ network.Contains ip.toNat := by
  rw [← Bool.not_eq_true, isForbiddenV4_iff]
  simp only [not_exists, not_and]

theorem first_of_globalUnicast {ip : Ipv6Addr}
    (unicast : isGlobalUnicastV6 ip = true) :
    0x2000 ≤ ip.s0.toNat ∧ ip.s0.toNat < 0x4000 := by
  have inside := ((isGlobalUnicastV6_iff ip).mp unicast).1
  unfold Network.Contains at inside
  have first := (toNat_segments ip).1
  have eighth : ip.s0.toNat / 2 ^ 13 = 1 := first.symm.trans inside
  omega

theorem first_differs {ip : Ipv6Addr} (unicast : isGlobalUnicastV6 ip = true)
    {value : UInt16} (small : value.toNat < 0x2000) :
    (ip.s0 == value) = false := by
  have least := (first_of_globalUnicast unicast).1
  rw [beq_eq_false_iff_ne]
  intro same
  rw [same] at least
  omega

/-- A mask of the first bits of a segment. -/
theorem masked_first {segment : UInt16} {pattern low : Nat}
    (within : low ≤ 16) (mask value : UInt16)
    (upper : mask.toNat = 2 ^ 16 - 2 ^ low)
    (shown : value.toNat = pattern * 2 ^ low) :
    (segment &&& mask == value) =
      decide (segment.toNat / 2 ^ low = pattern) := by
  have small : segment.toNat < 2 ^ 16 := segment.toNat_lt
  rw [Bool.eq_iff_iff, beq_iff_eq, decide_eq_true_eq, ← UInt16.toNat_inj,
    UInt16.toNat_and, upper, shown]
  exact and_upper_bits_eq small within

theorem special_of_globalUnicast {ip : Ipv6Addr}
    (unicast : isGlobalUnicastV6 ip = true) :
    ip.isLoopback = false ∧ ip.isMulticast = false ∧
      ip.isUnspecified = false ∧ isUniqueLocal ip = false ∧
      isLinkLocalV6 ip = false ∧ isSiteLocalV6 ip = false ∧
      toIpv4Mapped ip = none ∧ isLocalUseNat64 ip = false := by
  obtain ⟨least, greatest⟩ := first_of_globalUnicast unicast
  refine ⟨?_, ?_, ?_, ?_, ?_, ?_, ?_, ?_⟩
  · rw [Ipv6Addr.isLoopback, beq_eq_false_iff_ne]
    intro same
    rw [same] at least
    exact absurd least (by decide)
  · rw [Ipv6Addr.isMulticast,
      @masked_first ip.s0 0xff 8 (by decide) _ _ rfl rfl,
      decide_eq_false_iff_not]
    omega
  · rw [Ipv6Addr.isUnspecified, beq_eq_false_iff_ne]
    intro same
    rw [same] at least
    exact absurd least (by decide)
  · rw [isUniqueLocal, @masked_first ip.s0 0x7e 9 (by decide) _ _ rfl rfl,
      decide_eq_false_iff_not]
    omega
  · rw [isLinkLocalV6, @masked_first ip.s0 0x3fa 6 (by decide) _ _ rfl rfl,
      decide_eq_false_iff_not]
    omega
  · rw [isSiteLocalV6, @masked_first ip.s0 0x3fb 6 (by decide) _ _ rfl rfl,
      decide_eq_false_iff_not]
    omega
  · simp [toIpv4Mapped, @first_differs ip unicast 0 (by decide)]
  · simp [isLocalUseNat64, @first_differs ip unicast 0x0064 (by decide)]

theorem embeddedV4_of_globalUnicast {ip : Ipv6Addr}
    (unicast : isGlobalUnicastV6 ip = true) :
    embeddedV4 ip =
      if ip.s0 = 0x2002 then some (ofSegments ip.s1 ip.s2) else none := by
  have zero := @first_differs ip unicast 0 (by decide)
  have translated := @first_differs ip unicast 0x0064 (by decide)
  simp [embeddedV4, zero, translated]

/-- Behind the last clause the other ones only add the 6to4 addresses. -/
theorem isForbiddenV6_eq_false_iff (ip : Ipv6Addr) :
    isForbiddenV6 ip = false ↔ isGlobalUnicastV6 ip = true ∧
      (ip.s0 = 0x2002 → isForbiddenV4 (ofSegments ip.s1 ip.s2) = false) := by
  constructor
  · intro allowed
    simp only [isForbiddenV6, Bool.or_eq_false_iff, Bool.not_eq_false']
      at allowed
    refine ⟨allowed.2, fun transition => ?_⟩
    have embedded := allowed.1.1.2
    unfold embeddedV4 at embedded
    rw [if_pos (beq_iff_eq.mpr transition)] at embedded
    exact embedded
  · intro ⟨unicast, transition⟩
    obtain ⟨loopback, multicast, unspecified, unique, link, site, mapped,
      localUse⟩ := special_of_globalUnicast unicast
    have embedded : (embeddedV4 ip).any isForbiddenV4 = false := by
      rw [embeddedV4_of_globalUnicast unicast]
      by_cases first : ip.s0 = 0x2002
      · rw [if_pos first]
        exact transition first
      · rw [if_neg first]
        rfl
    simp only [isForbiddenV6, loopback, multicast, unspecified, unique, link,
      site, mapped, localUse, embedded, unicast, Option.any_none,
      Bool.or_false, Bool.not_true]

/-- `is_forbidden_ip` allows the permitted addresses. -/
theorem isForbiddenIp_eq_false_iff (ip : IpAddr) :
    isForbiddenIp ip = false ↔ Permitted ip := by
  cases ip with
  | v4 ip => exact isForbiddenV4_eq_false_iff ip
  | v6 ip =>
      apply (isForbiddenV6_eq_false_iff ip).trans
      rw [isGlobalUnicastV6_iff, isForbiddenV4_eq_false_iff,
        toNat_sixToFour, ← sixToFour_iff, Permitted]
      simp only [and_assoc]

end ChartLocker.Egress
