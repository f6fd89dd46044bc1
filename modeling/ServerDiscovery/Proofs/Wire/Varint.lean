import Mathlib.Algebra.Ring.Nat
import Mathlib.Data.List.Basic
import Mathlib.Tactic.SplitIfs
import ServerDiscovery.Wire.Varint

/-! An integer is read as it was written, and exactly its own bytes are taken. -/

namespace ServerDiscovery.Wire.Varint

theorem magnitude_lt (v : Int32) : magnitude v < 4294967296 := by
  unfold magnitude
  split <;> exact UInt32.toNat_lt _

theorem ofMagnitude_magnitude (v : Int32) : ofMagnitude (decide (v < 0)) (magnitude v) = v := by
  unfold ofMagnitude magnitude
  by_cases hv : v < 0
  · simp only [hv, decide_true, if_true, UInt32.ofNat_toNat]
    exact Int32.not_not
  · simp only [hv, decide_false, if_false, UInt32.ofNat_toNat]
    rfl

theorem byte_ofNat {n : Nat} (hn : n < 256) :
    (UInt8.ofNat n).toNat = n ∧ (UInt8.ofNat n < 128 ↔ n < 128) := by
  have hb : (UInt8.ofNat n).toNat = n := UInt8.toNat_ofNat_of_lt' hn
  refine ⟨hb, ?_⟩
  rw [UInt8.lt_iff_toNat_lt, hb]
  rfl

theorem continuation_extend {limit n : Nat} (h : n < 128 ^ (limit + 1)) (rest : Bytes) :
    continuation (limit + 1) (extend (n % 128) (n / 128) ++ rest) = .ok (n, rest) := by
  -- Each byte takes seven bits, so what is left is below one power of 128 less.
  induction limit generalizing n with
  | zero =>
    obtain ⟨hb, hlt⟩ := byte_ofNat (n := n % 128) (by omega)
    have hn : n < 128 := by simpa using h
    rw [extend, if_pos (by omega), List.cons_append, List.nil_append, continuation,
      if_pos (hlt.mpr (by omega)), hb, Nat.mod_eq_of_lt hn]
  | succ limit ih =>
    rw [extend]
    split_ifs with hzero
    · obtain ⟨hb, hlt⟩ := byte_ofNat (n := n % 128) (by omega)
      rw [List.cons_append, List.nil_append, continuation, if_pos (hlt.mpr (by omega)), hb,
        Nat.mod_eq_of_lt (by omega)]
    · obtain ⟨hb, hlt⟩ := byte_ofNat (n := n % 128 + 128) (by omega)
      have hdiv : n / 128 < 128 ^ (limit + 1) := by
        rw [Nat.pow_succ] at h
        omega
      rw [List.cons_append, continuation, if_neg (fun hsmall => by have := hlt.mp hsmall; omega),
        ih hdiv, hb]
      have hn : (n % 128 + 128) % 128 + 128 * (n / 128) = n := by omega
      exact congrArg (fun k => Except.ok (k, rest)) hn

theorem ofMagnitude_first (v : Int32) {first : Nat}
    (h : first % 128 = signBit v + magnitude v % 64) (high : Nat) (hhigh : high = magnitude v / 64) :
    ofMagnitude (decide (first / 64 % 2 = 1)) (first % 64 + 64 * high) = v := by
  have hsign : first / 64 % 2 = 1 ↔ v < 0 := by
    unfold signBit at h
    split_ifs at h with hv
    · exact iff_of_true (by omega) hv
    · exact iff_of_false (by omega) hv
  have hbits : first % 64 + 64 * high = magnitude v := by
    unfold signBit at h
    split_ifs at h <;> omega
  rw [hbits, decide_eq_decide.mpr hsign, ofMagnitude_magnitude]

theorem decode_encode (v : Int32) (rest : Bytes) : decode (encode v ++ rest) = .ok (v, rest) := by
  have hmag := magnitude_lt v
  have hle : signBit v + magnitude v % 64 < 128 := by
    unfold signBit
    split_ifs <;> omega
  unfold encode
  rw [extend]
  split_ifs with hzero
  · obtain ⟨hb, hlt⟩ := byte_ofNat (n := signBit v + magnitude v % 64) (by omega)
    -- One byte: what does not fit into it is zero.
    have hv := ofMagnitude_first v (Nat.mod_eq_of_lt hle) 0 hzero.symm
    rw [List.cons_append, List.nil_append, decode, if_pos (hlt.mpr hle), hb]
    exact congrArg (fun v => Except.ok (v, rest)) hv
  · obtain ⟨hb, hlt⟩ := byte_ofNat (n := signBit v + magnitude v % 64 + 128) (by omega)
    -- The bit that announces more is above the sign, and does not disturb the first six.
    have hfirst : (signBit v + magnitude v % 64 + 128) % 128 = signBit v + magnitude v % 64 := by
      omega
    have hv := ofMagnitude_first v hfirst _ rfl
    have hrest : continuation (maxLength - 1)
        (extend (magnitude v / 64 % 128) (magnitude v / 64 / 128) ++ rest)
          = .ok (magnitude v / 64, rest) :=
      continuation_extend (by omega) rest
    rw [List.cons_append, decode, if_neg (fun hsmall => by have := hlt.mp hsmall; omega), hrest, hb]
    exact congrArg (fun v => Except.ok (v, rest)) hv

end ServerDiscovery.Wire.Varint
