import Mathlib.Data.Nat.Bitwise
import ServerDiscovery.Packet.Payload
import ServerDiscovery.Proofs.Address.Entry

/-! What is read of the lists and counts that a master states. Each piece of a list is read as it
was written. The bytes of a count are joined bit by bit where they overlap, so that it is never read
as more than they spell, and stays below 2048 for as many of them as are read. -/

namespace ServerDiscovery

/-- The number that the bytes spell, high byte first. -/
def Bytes.bigEndian : Bytes → Nat
  | [] => 0
  | b :: rest => b.toNat * 256 ^ rest.length + bigEndian rest

namespace Packet

section Chunks

variable {α : Type}

theorem chunks_of_ne_nil {size : Nat} {xs : List α} (hxs : xs ≠ []) (hsize : size ≠ 0) :
    chunks size xs = xs.take size :: chunks size (xs.drop size) := by
  rw [chunks, if_neg (not_or.mpr ⟨hxs, hsize⟩)]

theorem length_chunks {size : Nat} (hsize : size ≠ 0) (xs : List α) :
    (chunks size xs).length = (xs.length + size - 1) / size := by
  fun_induction chunks size xs with
  | case1 xs h =>
    obtain rfl := h.resolve_right hsize
    exact (Nat.div_eq_of_lt (by simp only [List.length_nil]; omega)).symm
  | case2 xs h ih =>
    have hpos : 0 < xs.length := List.length_pos_iff.mpr fun hnil => h (.inl hnil)
    have hone : xs.length + size - 1 = xs.length - 1 + size := by omega
    rw [List.length_cons, ih, List.length_drop, hone, Nat.add_div_right _ (by omega)]
    congr 1
    rcases Nat.lt_or_ge xs.length size with hlt | hge
    · -- A piece that takes all leaves no other.
      rw [Nat.div_eq_of_lt (by omega), Nat.div_eq_of_lt (by omega)]
    · congr 1
      omega

theorem flatten_chunks {size : Nat} (hsize : size ≠ 0) (xs : List α) :
    (chunks size xs).flatten = xs := by
  fun_induction chunks size xs with
  | case1 xs h => exact (h.resolve_right hsize).symm
  | case2 xs h ih => rw [List.flatten_cons, ih, List.take_append_drop]

theorem getElem?_chunks {size i : Nat} {xs piece : List α} (h : (chunks size xs)[i]? = some piece) :
    size * i < xs.length ∧ piece = (xs.drop (size * i)).take size := by
  fun_induction chunks size xs generalizing i with
  | case1 xs hnil => simp at h
  | case2 xs hxs ih =>
    have hpos : 0 < xs.length := List.length_pos_iff.mpr fun hnil => hxs (.inl hnil)
    cases i with
    | zero =>
      obtain rfl := Option.some.inj h
      exact ⟨by rw [Nat.mul_zero]; exact hpos, by rw [Nat.mul_zero, List.drop_zero]⟩
    | succ i =>
      obtain ⟨hlt, hpiece⟩ := ih h
      rw [List.length_drop] at hlt
      rw [Nat.mul_succ]
      refine ⟨by omega, ?_⟩
      rw [hpiece, List.drop_drop, Nat.add_comm]

theorem length_of_mem_chunks {size i : Nat} {xs piece : List α}
    (h : (chunks size xs)[i]? = some piece) (hsize : size ≠ 0) :
    1 ≤ piece.length ∧ piece.length ≤ size ∧
      (i + 1 < (chunks size xs).length → piece.length = size) := by
  obtain ⟨hlt, rfl⟩ := getElem?_chunks h
  rw [List.length_take, List.length_drop]
  refine ⟨by omega, Nat.min_le_left _ _, fun hnext => ?_⟩
  obtain ⟨hlater, -⟩ := getElem?_chunks (List.getElem?_eq_getElem hnext)
  rw [Nat.mul_succ] at hlater
  omega

end Chunks

theorem listPayloads_of_ne_nil {servers : List Endpoint} (hservers : servers ≠ []) :
    listPayloads servers =
      (servers.take chunkSize).flatMap Endpoint.toEntry :: listPayloads (servers.drop chunkSize) := by
  have hsize : chunkSize ≠ 0 := by decide
  unfold listPayloads
  rw [chunks_of_ne_nil hservers hsize, List.map_cons]

theorem length_flatMap_toEntry (servers : List Endpoint) :
    (servers.flatMap Endpoint.toEntry).length = Endpoint.entrySize * servers.length := by
  induction servers with
  | nil => rfl
  | cons e servers ih =>
    rw [List.flatMap_cons, List.length_append, e.length_toEntry, ih, List.length_cons, Nat.mul_succ,
      Nat.add_comm]

theorem parseList_flatMap_toEntry (servers : List Endpoint) :
    parseList (servers.flatMap Endpoint.toEntry) = servers := by
  induction servers with
  | nil =>
    rw [List.flatMap_nil, parseList]
    exact if_pos (by decide)
  | cons e servers ih =>
    have hlength := e.length_toEntry
    have hlong : ¬ (e.toEntry ++ servers.flatMap Endpoint.toEntry).length < Endpoint.entrySize := by
      rw [List.length_append, hlength]
      exact Nat.not_lt.mpr (Nat.le_add_right _ _)
    rw [List.flatMap_cons, parseList, if_neg hlong, List.take_left' hlength,
      List.drop_left' hlength, e.ofEntry_toEntry, ih]

theorem or_le_add (a b : Nat) : a ||| b ≤ a + b := by
  induction a using Nat.strongRecOn generalizing b with
  | ind a ih =>
    rcases Nat.eq_zero_or_pos a with rfl | ha
    · rw [Nat.zero_or, Nat.zero_add]
    · -- Halves are joined as the numbers are, and the lowest bits carry at most what they add up to.
      have hhalf := ih (a / 2) (Nat.div_lt_self ha Nat.one_lt_two) (b / 2)
      have hdiv : (a ||| b) / 2 = a / 2 ||| b / 2 := Nat.or_div_two
      have hlowest : (a ||| b) % 2 = a % 2 ||| b % 2 := Nat.or_mod_two_pow (n := 1)
      have hmod : (a ||| b) % 2 ≤ a % 2 + b % 2 := by
        rw [hlowest]
        rcases Nat.mod_two_eq_zero_or_one a with h | h <;>
          rcases Nat.mod_two_eq_zero_or_one b with h' | h' <;> simp [h, h']
      omega

theorem countBits_lt (payload : Bytes) : countBits payload < 2 ^ (7 + payload.length) := by
  induction payload with
  | nil => decide
  | cons b rest ih =>
    have hbyte : b.toNat <<< rest.length < 2 ^ (8 + rest.length) := by
      rw [Nat.shiftLeft_eq, Nat.pow_add]
      exact Nat.mul_lt_mul_of_pos_right b.toNat_lt (Nat.two_pow_pos _)
    have hrest : countBits rest < 2 ^ (8 + rest.length) :=
      ih.trans_le (Nat.pow_le_pow_right Nat.two_pos (by omega))
    have hplaces : 7 + (b :: rest).length = 8 + rest.length := by
      rw [List.length_cons]
      omega
    rw [hplaces]
    exact Nat.or_lt_two_pow hbyte hrest

theorem shiftLeft_le_digit (b : UInt8) (n : Nat) : b.toNat <<< n ≤ b.toNat * 256 ^ n := by
  rw [Nat.shiftLeft_eq]
  exact Nat.mul_le_mul_left _ (Nat.pow_le_pow_left (by decide) n)

theorem shiftLeft_lt_digit {b : UInt8} (hb : b ≠ 0) {n : Nat} (hn : n ≠ 0) :
    b.toNat <<< n < b.toNat * 256 ^ n := by
  have hpos : 0 < b.toNat := Nat.pos_of_ne_zero fun h => hb (UInt8.toNat_inj.mp h)
  rw [Nat.shiftLeft_eq]
  exact Nat.mul_lt_mul_of_pos_left (Nat.pow_lt_pow_left (by decide) hn) hpos

theorem countBits_le_bigEndian (payload : Bytes) : countBits payload ≤ payload.bigEndian := by
  induction payload with
  | nil => exact le_rfl
  | cons b rest ih =>
    exact (or_le_add _ _).trans (Nat.add_le_add (shiftLeft_le_digit b rest.length) ih)

theorem countBits_eq_bigEndian_iff (payload : Bytes) :
    countBits payload = payload.bigEndian ↔ ∀ b ∈ payload.dropLast, b = 0 := by
  induction payload with
  | nil => simp [countBits, Bytes.bigEndian]
  | cons b rest ih =>
    cases rest with
    | nil => simp [countBits, Bytes.bigEndian]
    | cons c rest =>
      rw [List.dropLast_cons_cons, List.forall_mem_cons, ← ih]
      by_cases hb : b = 0
      · simp [countBits, Bytes.bigEndian, hb]
      · -- The first byte alone loses too much for the others to make up.
        have hlost := shiftLeft_lt_digit hb (Nat.succ_ne_zero rest.length)
        have hrest := countBits_le_bigEndian (c :: rest)
        have hjoined := or_le_add (b.toNat <<< (c :: rest).length) (countBits (c :: rest))
        have hless : countBits (b :: c :: rest) < Bytes.bigEndian (b :: c :: rest) :=
          hjoined.trans_lt (Nat.add_lt_add_of_lt_of_le hlost hrest)
        exact iff_of_false hless.ne fun h => hb h.1

theorem parseCount_of_short {payload : Bytes} (h : payload.length ≤ maxCountSize) :
    parseCount payload = .ok (countBits payload) := if_neg h.not_gt

theorem parseCount_of_long {payload : Bytes} (h : maxCountSize < payload.length) :
    parseCount payload = .error (.malformed .longServerCount) := if_pos h

def greatestCount : Nat := 2047

theorem countBits_le_of_short {payload : Bytes} (h : payload.length ≤ maxCountSize) :
    countBits payload ≤ greatestCount :=
  Nat.le_of_lt_succ ((countBits_lt payload).trans_le
    (Nat.pow_le_pow_right Nat.two_pos (Nat.add_le_add_left h 7)))

theorem le_of_parseCount {payload : Bytes} {count : Nat} (h : parseCount payload = .ok count) :
    count ≤ greatestCount := by
  rcases Nat.lt_or_ge maxCountSize payload.length with hlong | hshort
  · rw [parseCount_of_long hlong] at h
    cases h
  · rw [parseCount_of_short hshort] at h
    cases h
    exact countBits_le_of_short hshort

/-- The count that is read when a master states the number of its servers. -/
def readCount (servers : Nat) : Nat := countBits (countPayload (statedCount servers))

theorem parseCount_countPayload (servers : Nat) :
    parseCount (countPayload (statedCount servers)) = .ok (readCount servers) :=
  parseCount_of_short (show 2 ≤ 4 by decide)

theorem toNat_statedCount (servers : Nat) :
    (statedCount servers).toNat = min servers maxCount := by
  have hlt : min servers maxCount < 65536 := Nat.lt_of_le_of_lt (Nat.min_le_right _ _) (by decide)
  rw [statedCount, UInt16.toNat_ofNat', Nat.mod_eq_of_lt hlt]

theorem bigEndian_countPayload (count : UInt16) : (countPayload count).bigEndian = count.toNat := by
  have hlt := count.toNat_lt
  simp only [countPayload, Bytes.ofUInt16, Bytes.bigEndian, List.length_cons, List.length_nil,
    UInt8.toNat_ofNat']
  omega

theorem readCount_eq (servers : Nat) :
    readCount servers
      = 2 * (min servers maxCount / 256) ||| min servers maxCount % 256 := by
  have hlt : min servers maxCount < 65536 := Nat.lt_of_le_of_lt (Nat.min_le_right _ _) (by decide)
  have hhigh : min servers maxCount / 256 < 256 := Nat.div_lt_of_lt_mul hlt
  unfold readCount countPayload Bytes.ofUInt16
  simp only [countBits, List.length_cons, List.length_nil, Nat.shiftLeft_eq, toNat_statedCount,
    UInt8.toNat_ofNat', Nat.mod_eq_of_lt hhigh, Nat.zero_add, Nat.pow_one, Nat.pow_zero, Nat.mul_one,
    Nat.or_zero]
  rw [Nat.mul_comm]

theorem readCount_le (servers : Nat) : readCount servers ≤ servers := by
  have hspelled := countBits_le_bigEndian (countPayload (statedCount servers))
  rw [bigEndian_countPayload, toNat_statedCount] at hspelled
  exact hspelled.trans (Nat.min_le_left _ _)

theorem readCount_lt (servers : Nat) : readCount servers < 512 :=
  countBits_lt (countPayload (statedCount servers))

theorem readCount_of_le {servers : Nat} (h : servers ≤ 255) : readCount servers = servers := by
  have hmin : min servers maxCount = servers := Nat.min_eq_left (h.trans (by decide))
  have hlow : servers < 256 := Nat.lt_succ_of_le h
  rw [readCount_eq, hmin, Nat.div_eq_of_lt hlow, Nat.mod_eq_of_lt hlow, Nat.mul_zero, Nat.zero_or]

example : readCount 256 = 2 := by decide

theorem readCount_eq_zero_iff (servers : Nat) : readCount servers = 0 ↔ servers = 0 := by
  rw [readCount_eq, Nat.or_eq_zero_iff]
  have hmin : min servers maxCount = 0 ↔ servers = 0 := by simp [maxCount]
  omega

end Packet
end ServerDiscovery
