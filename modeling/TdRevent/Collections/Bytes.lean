import Mathlib.Data.UInt
import Mathlib.Tactic.Common

/-!
# Numbers as bytes

A number has a fixed number of bytes, the most significant first. Both directions are
inverse to each other where the sizes agree. A machine that stores the least significant
byte first reads the number with its bytes reversed.
-/

namespace Bytes

/-- The number that the bytes denote, the most significant first. -/
def ofBytes (bytes : List UInt8) : ℕ := bytes.foldl (fun n b => n * 256 + b.toNat) 0

/-- The lowest `width` bytes of a number, the most significant first. -/
def toBytes : ℕ → ℕ → List UInt8
  | 0, _ => []
  | width + 1, n => toBytes width (n / 256) ++ [.ofNat n]

@[simp] theorem ofBytes_nil : ofBytes [] = 0 := rfl

@[simp] theorem ofBytes_snoc (bytes : List UInt8) (b : UInt8) :
    ofBytes (bytes ++ [b]) = ofBytes bytes * 256 + b.toNat := by
  simp [ofBytes, List.foldl_append]

@[simp] theorem length_toBytes (width n : ℕ) : (toBytes width n).length = width := by
  induction width generalizing n with
  | zero => rfl
  | succ width ih => simp [toBytes, ih]

theorem ofBytes_lt (bytes : List UInt8) : ofBytes bytes < 256 ^ bytes.length := by
  induction bytes using List.reverseRecOn with
  | nil => simp
  | append_singleton bytes b ih =>
      have hb : b.toNat < 256 := b.toNat_lt
      rw [ofBytes_snoc, List.length_append, List.length_singleton, pow_succ]
      omega

/-- A number is read back as far as the bytes hold it. -/
theorem ofBytes_toBytes {width n : ℕ} (h : n < 256 ^ width) :
    ofBytes (toBytes width n) = n := by
  induction width generalizing n with
  | zero =>
      rw [pow_zero] at h
      exact (Nat.lt_one_iff.mp h).symm
  | succ width ih =>
      have hdiv : n / 256 < 256 ^ width := by
        rw [pow_succ] at h
        exact Nat.div_lt_of_lt_mul (Nat.mul_comm _ _ ▸ h)
      rw [toBytes, ofBytes_snoc, ih hdiv, UInt8.toNat_ofNat']
      omega

theorem toBytes_ofBytes (bytes : List UInt8) :
    toBytes bytes.length (ofBytes bytes) = bytes := by
  induction bytes using List.reverseRecOn with
  | nil => rfl
  | append_singleton bytes b ih =>
      have hb : b.toNat < 256 := b.toNat_lt
      have hdiv : (ofBytes bytes * 256 + b.toNat) / 256 = ofBytes bytes := by omega
      have hmod : UInt8.ofNat (ofBytes bytes * 256 + b.toNat) = b := by
        apply UInt8.toNat_inj.mp
        rw [UInt8.toNat_ofNat']
        omega
      rw [List.length_append, List.length_singleton, ofBytes_snoc, toBytes, hdiv, hmod, ih]

/-- The bytes of a number are those that denote it. -/
theorem eq_toBytes_iff {width n : ℕ} {bytes : List UInt8} (hlength : bytes.length = width)
    (h : n < 256 ^ width) : bytes = toBytes width n ↔ ofBytes bytes = n := by
  constructor
  · rintro rfl
    exact ofBytes_toBytes h
  · rintro rfl
    rw [← hlength, toBytes_ofBytes]

/-- The number that is read where the least significant byte is stored first. -/
def load (bytes : List UInt8) : ℕ := ofBytes bytes.reverse

/-- Reverse the bytes of a number. -/
def swapBytes (width n : ℕ) : ℕ := ofBytes (toBytes width n).reverse

/-- What is read and then reversed is what the bytes denote. -/
theorem swap_load {width : ℕ} {bytes : List UInt8} (hlength : bytes.length = width) :
    swapBytes width (load bytes) = ofBytes bytes := by
  have hreverse : toBytes width (load bytes) = bytes.reverse := by
    rw [← hlength, ← bytes.length_reverse, load, toBytes_ofBytes]
  rw [swapBytes, hreverse, List.reverse_reverse]

theorem load_eq_iff {width n : ℕ} {bytes : List UInt8} (hlength : bytes.length = width)
    (h : n < 256 ^ width) : load bytes = n ↔ bytes = (toBytes width n).reverse := by
  have hiff := eq_toBytes_iff ((bytes.length_reverse).trans hlength) h
  rw [load, ← hiff]
  exact List.reverse_eq_iff

/-- A list starts with two pieces, one after the other. -/
theorem append_prefix_iff {α : Type} (first rest list : List α) :
    first ++ rest <+: list ↔ list.take first.length = first ∧ rest <+: list.drop first.length := by
  constructor
  · rintro ⟨tail, rfl⟩
    rw [List.append_assoc, List.take_left, List.drop_left]
    exact ⟨rfl, List.prefix_append rest tail⟩
  · rintro ⟨hfirst, tail, htail⟩
    refine ⟨tail, ?_⟩
    rw [List.append_assoc, htail]
    exact (congrArg (· ++ _) hfirst.symm).trans (list.take_append_drop _)

end Bytes
