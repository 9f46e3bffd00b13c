import Mathlib.Tactic.NormNum
import TdRevent.Collections.Bytes
import TdRevent.PollTimeout

/-!
# Socket addresses in memory

When a connection was accepted the system has stored its address in the layout of the
sockets of Windows, from which `ptrsToSocketAddr` reads it. A buffer gives an address
exactly if it starts with the layout of that address and the length covers it.

## Implementation notes

Ports, flow labels, scopes and the parts of an address are stored with the most
significant byte first, and the family with the least significant one, as on all machines
that Windows runs on. The length is a signed number of 32 bits, which becomes an unsigned
one of 64 bits before it is compared, so a negative length covers everything.
-/

namespace TdRevent.Win

open Bytes

structure Ipv4Addr where
  (a b c d : UInt8)
  deriving DecidableEq

structure Ipv6Addr where
  (a b c d e f g h : UInt16)
  deriving DecidableEq

structure SocketAddrV4 where
  ip : Ipv4Addr
  port : UInt16
  deriving DecidableEq

structure SocketAddrV6 where
  ip : Ipv6Addr
  port : UInt16
  flowinfo : UInt32
  scopeId : UInt32
  deriving DecidableEq

inductive SocketAddr
  | V4 (addr : SocketAddrV4)
  | V6 (addr : SocketAddrV6)
  deriving DecidableEq

/-- Room for every kind of address. -/
structure SOCKADDR_STORAGE where
  bytes : List UInt8
  size : bytes.length = 128

namespace SOCKADDR_STORAGE

/-- The bytes of a field. -/
def field (ptr : SOCKADDR_STORAGE) (offset width : ℕ) : List UInt8 :=
  (ptr.bytes.drop offset).take width

theorem length_field (ptr : SOCKADDR_STORAGE) {offset width : ℕ} (h : offset + width ≤ 128) :
    (ptr.field offset width).length = width := by
  rw [field, List.length_take, List.length_drop, ptr.size]
  omega

end SOCKADDR_STORAGE

def AF_INET : ℕ := 2

def AF_INET6 : ℕ := 23

/-- `len as usize`. -/
def asUsize (len : Int32) : ℕ := len.toInt64.toUInt64.toNat

/-- `ntoh`, for a number of that many bytes. -/
def ntoh (width n : ℕ) : ℕ := swapBytes width n

/-- Two bytes of `s6_addr` as a part of the address. -/
def segment (arr : List UInt8) (i : ℕ) : UInt16 :=
  ((arr.getD i 0).toUInt16 <<< 8) ||| (arr.getD (i + 1) 0).toUInt16

def ptrsToSocketAddr (ptr : SOCKADDR_STORAGE) (len : Int32) : Option SocketAddr :=
  if asUsize len < 4 then none
  else if load (ptr.field 0 2) = AF_INET ∧ 16 ≤ asUsize len then
    let ip := ntoh 4 (load (ptr.field 4 4))
    let ip : Ipv4Addr :=
      ⟨.ofNat (ip >>> 24), .ofNat (ip >>> 16), .ofNat (ip >>> 8), .ofNat (ip >>> 0)⟩
    some (.V4 ⟨ip, .ofNat (ntoh 2 (load (ptr.field 2 2)))⟩)
  else if load (ptr.field 0 2) = AF_INET6 ∧ 28 ≤ asUsize len then
    let arr := ptr.field 8 16
    let ip : Ipv6Addr :=
      ⟨segment arr 0, segment arr 2, segment arr 4, segment arr 6,
        segment arr 8, segment arr 10, segment arr 12, segment arr 14⟩
    some (.V6 ⟨ip, .ofNat (ntoh 2 (load (ptr.field 2 2))),
      .ofNat (ntoh 4 (load (ptr.field 4 4))), .ofNat (ntoh 4 (load (ptr.field 24 4)))⟩)
  else none

/-! ## The layout -/

namespace SocketAddr

/-- The bytes of an address up to its padding. -/
def layout : SocketAddr → List UInt8
  | .V4 addr => [2, 0] ++ (toBytes 2 addr.port.toNat ++
      [addr.ip.a, addr.ip.b, addr.ip.c, addr.ip.d])
  | .V6 addr => [23, 0] ++ (toBytes 2 addr.port.toNat ++ (toBytes 4 addr.flowinfo.toNat ++
      (toBytes 2 addr.ip.a.toNat ++ (toBytes 2 addr.ip.b.toNat ++
      (toBytes 2 addr.ip.c.toNat ++ (toBytes 2 addr.ip.d.toNat ++
      (toBytes 2 addr.ip.e.toNat ++ (toBytes 2 addr.ip.f.toNat ++
      (toBytes 2 addr.ip.g.toNat ++ (toBytes 2 addr.ip.h.toNat ++
      toBytes 4 addr.scopeId.toNat))))))))))

/-- The length of an address with its padding, as `socket_addr_to_ptrs` gives it. -/
def len : SocketAddr → ℕ
  | .V4 _ => 16
  | .V6 _ => 28

end SocketAddr

/-! ## The fields -/

theorem ofNat_load_iff16 {bytes : List UInt8} (hlength : bytes.length = 2) (x : UInt16) :
    UInt16.ofNat (ntoh 2 (load bytes)) = x ↔ bytes = toBytes 2 x.toNat := by
  have hlt := ofBytes_lt bytes
  rw [hlength] at hlt
  rw [ntoh, swap_load hlength, eq_toBytes_iff hlength x.toNat_lt, ← UInt16.toNat_inj,
    UInt16.toNat_ofNat_of_lt' hlt]

theorem ofNat_load_iff32 {bytes : List UInt8} (hlength : bytes.length = 4) (x : UInt32) :
    UInt32.ofNat (ntoh 4 (load bytes)) = x ↔ bytes = toBytes 4 x.toNat := by
  have hlt := ofBytes_lt bytes
  rw [hlength] at hlt
  rw [ntoh, swap_load hlength, eq_toBytes_iff hlength x.toNat_lt, ← UInt32.toNat_inj,
    UInt32.toNat_ofNat_of_lt' hlt]

theorem segment_eq {arr : List UInt8} {i : ℕ} (h : i + 2 ≤ arr.length) :
    segment arr i = .ofNat (ntoh 2 (load ((arr.drop i).take 2))) := by
  have hpair : (arr.drop i).take 2 = [arr.getD i 0, arr.getD (i + 1) 0] := by
    have hi : i < arr.length := by omega
    have hi' : i + 1 < arr.length := by omega
    rw [List.drop_eq_getElem_cons hi, List.drop_eq_getElem_cons hi', List.take_succ_cons,
      List.take_succ_cons, List.take_zero]
    simp [List.getD_eq_getElem?_getD, hi, hi']
  have hlength : [arr.getD i 0, arr.getD (i + 1) 0].length = 2 := rfl
  rw [hpair, ntoh, swap_load hlength, segment]
  generalize arr.getD i 0 = x
  generalize arr.getD (i + 1) 0 = y
  have hx : x.toNat < 256 := x.toNat_lt
  have hy : y.toNat < 256 := y.toNat_lt
  have hor : x.toNat <<< 8 % 2 ^ 16 ||| y.toNat = x.toNat * 256 + y.toNat := by
    have hsmall : x.toNat <<< 8 % 2 ^ 16 = x.toNat <<< 8 := by
      rw [Nat.shiftLeft_eq]
      omega
    rw [hsmall, ← Nat.shiftLeft_add_eq_or_of_lt hy, Nat.shiftLeft_eq]
  have hpair : ofBytes [x, y] = x.toNat * 256 + y.toNat := by simp [ofBytes]
  apply UInt16.toNat_inj.mp
  rw [hpair, UInt16.toNat_ofNat_of_lt' (show x.toNat * 256 + y.toNat < 2 ^ 16 by omega),
    UInt16.toNat_or, UInt16.toNat_shiftLeft, UInt8.toNat_toUInt16, UInt8.toNat_toUInt16]
  exact hor

theorem octets_eq {bytes : List UInt8} (hlength : bytes.length = 4) :
    [UInt8.ofNat (ntoh 4 (load bytes) >>> 24), .ofNat (ntoh 4 (load bytes) >>> 16),
      .ofNat (ntoh 4 (load bytes) >>> 8), .ofNat (ntoh 4 (load bytes) >>> 0)] = bytes := by
  have hbytes := toBytes_ofBytes bytes
  rw [hlength] at hbytes
  rw [ntoh, swap_load hlength]
  refine Eq.trans ?_ hbytes
  simp only [toBytes, Nat.div_div_eq_div_mul, Nat.shiftRight_eq_div_pow, List.nil_append,
    List.cons_append]
  norm_num

/-- The first two bytes are the family. -/
theorem family_iff (ptr : SOCKADDR_STORAGE) {family : ℕ} (h : family < 256) :
    load (ptr.field 0 2) = family ↔ ptr.field 0 2 = [.ofNat family, 0] := by
  have hdiv : family / 256 = 0 := Nat.div_eq_of_lt h
  rw [load_eq_iff (ptr.length_field (by omega)) (by omega)]
  simp [toBytes, hdiv]

/-- A negative length covers everything. -/
theorem le_asUsize_iff (len : Int32) {n : ℕ} (h : n < 2 ^ 31) :
    n ≤ asUsize len ↔ len.toInt < 0 ∨ (n : ℤ) ≤ len.toInt := by
  have hsign := Unix.toInt_toInt64 len.toInt64.toUInt64
  have hback : len.toInt64.toUInt64.toInt64 = len.toInt64 := rfl
  rw [hback, Int32.toInt_toInt64] at hsign
  have hlow := len.le_toInt
  have hhigh := len.toInt_lt
  have hbound := len.toInt64.toUInt64.toNat_lt
  unfold asUsize
  split at hsign <;> omega

/-! ## The layout of an address -/

theorem layout_V4_iff (ptr : SOCKADDR_STORAGE) (addr : SocketAddrV4) :
    (SocketAddr.V4 addr).layout <+: ptr.bytes ↔ ptr.field 0 2 = [2, 0] ∧
      ptr.field 2 2 = toBytes 2 addr.port.toNat ∧
      ptr.field 4 4 = [addr.ip.a, addr.ip.b, addr.ip.c, addr.ip.d] := by
  rw [SocketAddr.layout, append_prefix_iff, append_prefix_iff, List.prefix_iff_eq_take]
  simp only [length_toBytes, List.drop_drop, List.length_cons, List.length_nil]
  exact and_congr Iff.rfl (and_congr Iff.rfl eq_comm)

theorem layout_V6_iff (ptr : SOCKADDR_STORAGE) (addr : SocketAddrV6) :
    (SocketAddr.V6 addr).layout <+: ptr.bytes ↔ ptr.field 0 2 = [23, 0] ∧
      ptr.field 2 2 = toBytes 2 addr.port.toNat ∧ ptr.field 4 4 = toBytes 4 addr.flowinfo.toNat ∧
      (ptr.field 8 2 = toBytes 2 addr.ip.a.toNat ∧ ptr.field 10 2 = toBytes 2 addr.ip.b.toNat ∧
        ptr.field 12 2 = toBytes 2 addr.ip.c.toNat ∧ ptr.field 14 2 = toBytes 2 addr.ip.d.toNat ∧
        ptr.field 16 2 = toBytes 2 addr.ip.e.toNat ∧ ptr.field 18 2 = toBytes 2 addr.ip.f.toNat ∧
        ptr.field 20 2 = toBytes 2 addr.ip.g.toNat ∧ ptr.field 22 2 = toBytes 2 addr.ip.h.toNat) ∧
      ptr.field 24 4 = toBytes 4 addr.scopeId.toNat := by
  simp only [SocketAddr.layout, append_prefix_iff, List.drop_drop, length_toBytes,
    List.length_cons, List.length_nil]
  rw [List.prefix_iff_eq_take]
  simp only [SOCKADDR_STORAGE.field, List.drop_zero, length_toBytes, and_assoc]
  rw [eq_comm (a := toBytes 4 addr.scopeId.toNat)]

/-! ## Reading -/

theorem octets_iff {bytes : List UInt8} (hlength : bytes.length = 4) (ip : Ipv4Addr) :
    (⟨.ofNat (ntoh 4 (load bytes) >>> 24), .ofNat (ntoh 4 (load bytes) >>> 16),
      .ofNat (ntoh 4 (load bytes) >>> 8), .ofNat (ntoh 4 (load bytes) >>> 0)⟩ : Ipv4Addr) = ip ↔
      bytes = [ip.a, ip.b, ip.c, ip.d] := by
  obtain ⟨a, b, c, d⟩ := ip
  rw [Ipv4Addr.mk.injEq]
  conv_rhs => rw [← octets_eq hlength]
  simp only [List.cons.injEq, and_true]

theorem segment_iff (ptr : SOCKADDR_STORAGE) {i : ℕ} (h : i + 2 ≤ 16) (x : UInt16) :
    segment (ptr.field 8 16) i = x ↔ ptr.field (8 + i) 2 = toBytes 2 x.toNat := by
  have hlength := ptr.length_field (show 8 + 16 ≤ 128 by omega)
  have hpart : ((ptr.field 8 16).drop i).take 2 = ptr.field (8 + i) 2 := by
    rw [SOCKADDR_STORAGE.field, List.drop_take, List.drop_drop, List.take_take,
      Nat.min_eq_left (by omega), SOCKADDR_STORAGE.field]
  rw [segment_eq (by omega), hpart, ofNat_load_iff16 (ptr.length_field (by omega))]

/-- A buffer gives an address exactly if it starts with the layout of that address and the
length covers it. -/
theorem socket_addr_iff (ptr : SOCKADDR_STORAGE) (len : Int32) (addr : SocketAddr) :
    ptrsToSocketAddr ptr len = some addr ↔
      (len.toInt < 0 ∨ (addr.len : ℤ) ≤ len.toInt) ∧ addr.layout <+: ptr.bytes := by
  have hfour : ptr.field 0 2 = [2, 0] ↔ load (ptr.field 0 2) = AF_INET :=
    (family_iff ptr (by decide)).symm
  have hsix : ptr.field 0 2 = [23, 0] ↔ load (ptr.field 0 2) = AF_INET6 :=
    (family_iff ptr (by decide)).symm
  rw [← le_asUsize_iff len (n := addr.len) (by cases addr <;> simp [SocketAddr.len])]
  cases addr with
  | V4 addr =>
      obtain ⟨ip, port⟩ := addr
      rw [layout_V4_iff, hfour, ← ofNat_load_iff16 (ptr.length_field (by omega)),
        ← octets_iff (ptr.length_field (by omega))]
      unfold ptrsToSocketAddr SocketAddr.len
      grind [AF_INET, AF_INET6]
  | V6 addr =>
      obtain ⟨ip, port, flowinfo, scopeId⟩ := addr
      obtain ⟨a, b, c, d, e, f, g, h⟩ := ip
      rw [layout_V6_iff, hsix, ← ofNat_load_iff16 (ptr.length_field (by omega)),
        ← ofNat_load_iff32 (ptr.length_field (by omega)),
        ← ofNat_load_iff32 (ptr.length_field (by omega)),
        ← segment_iff ptr (i := 0) (by omega), ← segment_iff ptr (i := 2) (by omega),
        ← segment_iff ptr (i := 4) (by omega), ← segment_iff ptr (i := 6) (by omega),
        ← segment_iff ptr (i := 8) (by omega), ← segment_iff ptr (i := 10) (by omega),
        ← segment_iff ptr (i := 12) (by omega), ← segment_iff ptr (i := 14) (by omega)]
      unfold ptrsToSocketAddr SocketAddr.len
      grind [AF_INET, AF_INET6]

end TdRevent.Win
