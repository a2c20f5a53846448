/-! Byte offsets as records keep them, in 32 bits. An offset that does not fit becomes the
greatest one, so the order of offsets is never reversed. -/

namespace BracketLint.Offset

def greatest : Nat := 4294967295

def ofNat (n : Nat) : UInt32 := UInt32.ofNat (min n greatest)

theorem toNat_ofNat (n : Nat) : (ofNat n).toNat = min n greatest := by
  simp only [ofNat, UInt32.toNat_ofNat', greatest]
  omega

theorem toNat_ofNat_of_le {n : Nat} (h : n ≤ greatest) : (ofNat n).toNat = n := by
  rw [toNat_ofNat, Nat.min_eq_left h]

theorem ofNat_le_ofNat {m n : Nat} (h : m ≤ n) : ofNat m ≤ ofNat n := by
  rw [UInt32.le_iff_toNat_le, toNat_ofNat, toNat_ofNat]
  omega

end BracketLint.Offset
