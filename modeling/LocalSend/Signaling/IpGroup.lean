/-
  File:      LocalSend/Signaling/IpGroup.lean
  Subject:   THE ROOM OF AN ADDRESS (`server/src/util/ip.rs`): the text under which the server keeps
             the peers of one network.

  * `Ipv4Addr`, `Ipv6Addr` -- addresses by their bits, read as octets and as segments;
  * `getIpGroup` -- an IPv4 address is a group of its own, of an IPv6 address the first four
    segments count;
  * **`getIpGroup_eq_iff`** -- two addresses have one group exactly when they are the same IPv4
    address, or IPv6 addresses that agree in their first 64 bits.
-/
import LocalSend.Lib.Digits

namespace LocalSend.Signaling

open Lib

/-! ## 1. Addresses -/

structure Ipv4Addr where
  bits : BitVec 32
  deriving DecidableEq

structure Ipv6Addr where
  bits : BitVec 128
  deriving DecidableEq

inductive IpAddr where
  | v4 (ip : Ipv4Addr)
  | v6 (ip : Ipv6Addr)
  deriving DecidableEq

/-- `octets()`: the four bytes, the first one first. -/
def Ipv4Addr.octets (ip : Ipv4Addr) : Vector (BitVec 8) 4 :=
  #v[ip.bits.extractLsb' 24 8, ip.bits.extractLsb' 16 8, ip.bits.extractLsb' 8 8,
    ip.bits.extractLsb' 0 8]

/-- `segments()`: the eight 16-bit parts, the first one first. -/
def Ipv6Addr.segments (ip : Ipv6Addr) : Vector (BitVec 16) 8 :=
  #v[ip.bits.extractLsb' 112 16, ip.bits.extractLsb' 96 16, ip.bits.extractLsb' 80 16,
    ip.bits.extractLsb' 64 16, ip.bits.extractLsb' 48 16, ip.bits.extractLsb' 32 16,
    ip.bits.extractLsb' 16 16, ip.bits.extractLsb' 0 16]

/-- The first 64 bits of the address. -/
def Ipv6Addr.network (ip : Ipv6Addr) : BitVec 64 := ip.bits.extractLsb' 64 64

/-! ## 2. The group -/

/-- A number in the format `{}`. -/
def decimal (n : Nat) : String := String.ofList (Nat.toDigits 10 n)

/-- A number in the format `{:x}`: lower case, no leading zeros. -/
def lowerHex (n : Nat) : String := String.ofList (Nat.toDigits 16 n)

/-- `Ipv4Addr::to_string`. -/
def Ipv4Addr.toText (ip : Ipv4Addr) : String :=
  decimal ip.octets[0].toNat ++ "." ++ decimal ip.octets[1].toNat ++ "." ++
    decimal ip.octets[2].toNat ++ "." ++ decimal ip.octets[3].toNat

/-- `get_ip_group`. -/
def getIpGroup : IpAddr → String
  | .v4 ip => ip.toText
  | .v6 ip =>
    let segments := ip.segments
    lowerHex segments[0].toNat ++ ":" ++ lowerHex segments[1].toNat ++ ":" ++
      lowerHex segments[2].toNat ++ ":" ++ lowerHex segments[3].toNat

/-- The addresses 1.2.3.4 and a:b:c:d:e:f:0:1. -/
example : getIpGroup (.v4 ⟨0x01020304⟩) = "1.2.3.4" ∧
    getIpGroup (.v6 ⟨0x000a000b000c000d000e000f00000001⟩) = "a:b:c:d" := by decide +kernel

/-! ## 3. Which addresses share a group -/

theorem Ipv4Addr.toNat_octets (ip : Ipv4Addr) : ip.octets.toList.map (·.toNat) =
    [ip.bits.toNat >>> 24 % 256, ip.bits.toNat >>> 16 % 256, ip.bits.toNat >>> 8 % 256,
      ip.bits.toNat % 256] := by
  simp [octets]

theorem Ipv6Addr.toNat_segments (ip : Ipv6Addr) : (ip.segments.toList.take 4).map (·.toNat) =
    [ip.bits.toNat >>> 112 % 65536, ip.bits.toNat >>> 96 % 65536, ip.bits.toNat >>> 80 % 65536,
      ip.bits.toNat >>> 64 % 65536] := by
  simp [segments]

theorem Ipv6Addr.toNat_network (ip : Ipv6Addr) :
    ip.network.toNat = ip.bits.toNat >>> 64 % 18446744073709551616 := by
  simp [network]

/-- The octets make up the address. -/
theorem Ipv4Addr.eq_of_octets {x y : Ipv4Addr}
    (h : x.octets.toList.map (·.toNat) = y.octets.toList.map (·.toNat)) : x = y := by
  rw [toNat_octets, toNat_octets] at h
  simp only [List.cons.injEq, and_true] at h
  obtain ⟨h24, h16, h8, h0⟩ := h
  have hbits : x.bits.toNat = y.bits.toNat := by omega
  cases x
  cases y
  exact congrArg Ipv4Addr.mk (BitVec.eq_of_toNat_eq hbits)

/-- The first four segments make up the first 64 bits. -/
theorem Ipv6Addr.network_eq_iff {x y : Ipv6Addr} : x.network = y.network ↔
    (x.segments.toList.take 4).map (·.toNat) = (y.segments.toList.take 4).map (·.toNat) := by
  rw [← BitVec.toNat_inj, toNat_network, toNat_network, toNat_segments, toNat_segments]
  simp only [List.cons.injEq, and_true]
  omega

theorem toList_toText (ip : Ipv4Addr) : ip.toText.toList =
    ['.'].intercalate ((ip.octets.toList.map (·.toNat)).map (Nat.toDigits 10)) := by
  simp [Ipv4Addr.toText, Ipv4Addr.octets, decimal, List.intercalate]

theorem toList_getIpGroup_v6 (ip : Ipv6Addr) :
    (getIpGroup (.v6 ip)).toList =
      [':'].intercalate (((ip.segments.toList.take 4).map (·.toNat)).map (Nat.toDigits 16)) := by
  simp [getIpGroup, Ipv6Addr.segments, lowerHex, List.intercalate]

theorem getIpGroup_v4_inj {x y : Ipv4Addr} (h : getIpGroup (.v4 x) = getIpGroup (.v4 y)) :
    x = y := by
  have htext : x.toText.toList = y.toText.toList := congrArg String.toList h
  rw [toList_toText, toList_toText] at htext
  exact Ipv4Addr.eq_of_octets (Digits.numbers_inj (by decide) (by decide) (by decide)
    (by simp [Ipv4Addr.octets]) (by simp [Ipv4Addr.octets]) htext)

/-- **The text of a group is injective** in the first 64 bits, and depends on nothing else. -/
theorem getIpGroup_v6_iff {x y : Ipv6Addr} :
    getIpGroup (.v6 x) = getIpGroup (.v6 y) ↔ x.network = y.network := by
  rw [Ipv6Addr.network_eq_iff]
  constructor
  · intro h
    have htext := congrArg String.toList h
    rw [toList_getIpGroup_v6, toList_getIpGroup_v6] at htext
    exact Digits.numbers_inj (by decide) (by decide) (by decide)
      (by simp [Ipv6Addr.segments]) (by simp [Ipv6Addr.segments]) htext
  · intro h
    apply String.toList_injective
    rw [toList_getIpGroup_v6, toList_getIpGroup_v6, h]

/-- **The two kinds of addresses share no group**: a colon is in the text of one only. -/
theorem getIpGroup_v4_ne_v6 (x : Ipv4Addr) (y : Ipv6Addr) :
    getIpGroup (.v4 x) ≠ getIpGroup (.v6 y) := by
  intro h
  have hcolon : ':' ∈ (getIpGroup (.v6 y)).toList := by simp [getIpGroup]
  rw [← h] at hcolon
  have hno : ∀ n, ':' ∉ Nat.toDigits 10 n := fun n =>
    Digits.not_mem_toDigits (by decide) (by decide) (by decide)
  simp [getIpGroup, Ipv4Addr.toText, decimal, hno] at hcolon

/-- **IP grouping.** Two addresses have one group exactly when both are the same IPv4 address, or
    both are IPv6 addresses with the same first 64 bits. -/
theorem getIpGroup_eq_iff (a b : IpAddr) : getIpGroup a = getIpGroup b ↔
    (∃ ip, a = .v4 ip ∧ b = .v4 ip) ∨
      ∃ x y, a = .v6 x ∧ b = .v6 y ∧ x.bits.extractLsb' 64 64 = y.bits.extractLsb' 64 64 := by
  constructor
  · intro h
    cases a with
    | v4 x =>
        cases b with
        | v4 y =>
            obtain rfl := getIpGroup_v4_inj h
            exact .inl ⟨x, rfl, rfl⟩
        | v6 y => exact absurd h (getIpGroup_v4_ne_v6 x y)
    | v6 x =>
        cases b with
        | v4 y => exact absurd h.symm (getIpGroup_v4_ne_v6 y x)
        | v6 y => exact .inr ⟨x, y, rfl, rfl, getIpGroup_v6_iff.mp h⟩
  · intro h
    obtain ⟨ip, rfl, rfl⟩ | ⟨x, y, rfl, rfl, hnetwork⟩ := h
    · rfl
    · exact getIpGroup_v6_iff.mpr hnetwork

end LocalSend.Signaling
