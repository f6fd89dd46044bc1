import Mathlib.Algebra.Order.Ring.Nat
import Mathlib.Data.Nat.Bitwise
import ServerDiscovery.Proofs.Wire.Sequencing

/-! How many bytes an integer takes, and what any bytes are read as. Seven bits go into each byte but
six into the first, so that the magnitude alone decides the length. What is read ends with the first
byte that announces no other, if that is one of the first five; and however it was padded, the number
that comes out takes no more bytes when it is written. -/

namespace ServerDiscovery.Wire

def Reader.ints : Nat → Reader (List Int32)
  | 0 => pure []
  | n + 1 => do
    let v ← int
    let vs ← ints n
    return v :: vs

namespace Varint

open Reading

variable {v : Int32} {b : UInt8} {bs before rest : Bytes} {limit n k bits : Nat}

/-! ### Lengths -/

theorem length_extend (low rest : Nat) : (extend low rest).length = groups rest + 1 := by
  fun_induction extend low rest with
  | case1 low =>
    rw [groups, if_pos rfl]
    rfl
  | case2 low rest hrest ih =>
    rw [List.length_cons, ih, groups.eq_def rest, if_neg hrest]

theorem length_encode (v : Int32) : (encode v).length = encodedLength v := length_extend _ _

theorem groups_le_iff : groups n ≤ k ↔ n < 128 ^ k := by
  induction k generalizing n with
  | zero =>
    rw [groups]
    split_ifs with hn <;> omega
  | succ k ih =>
    rw [groups]
    split_ifs with hn
    · exact iff_of_true (Nat.zero_le _) (hn ▸ Nat.pow_pos (by decide))
    · rw [Nat.add_le_add_iff_right, ih, Nat.div_lt_iff_lt_mul (by decide), Nat.pow_succ]

theorem encodedLength_le_iff : encodedLength v ≤ k + 1 ↔ magnitude v < 64 * 128 ^ k := by
  unfold encodedLength
  rw [Nat.add_le_add_iff_right, groups_le_iff, Nat.div_lt_iff_lt_mul (by decide), Nat.mul_comm]

theorem encodedLength_le (v : Int32) : encodedLength v ≤ maxLength :=
  encodedLength_le_iff.mpr (Nat.lt_trans (magnitude_lt v) (by decide))

/-! ### Writing -/

def append (written : Bytes) (v : Int32) : Bytes × Nat :=
  let longer := written ++ encode v
  (longer, longer.length - written.length)

def appendAll (written : Bytes) (vs : List Int32) : Bytes :=
  vs.foldl (fun written v => (append written v).1) written

theorem append_eq (written : Bytes) (v : Int32) :
    append written v = (written ++ encode v, encodedLength v) := by
  have hcount : (written ++ encode v).length - written.length = encodedLength v := by
    rw [List.length_append, Nat.add_sub_cancel_left, length_encode]
  exact congrArg (Prod.mk _) hcount

theorem appendAll_eq (written : Bytes) (vs : List Int32) :
    appendAll written vs = written ++ vs.flatMap encode := by
  induction vs generalizing written with
  | nil => exact (List.append_nil written).symm
  | cons v vs ih =>
    rw [List.flatMap_cons, ← List.append_assoc]
    exact ih (written ++ encode v)

theorem ints_flatMap_encode (vs : List Int32) (rest : Bytes) :
    Reader.ints vs.length (vs.flatMap encode ++ rest) = .ok (vs, rest) := by
  induction vs with
  | nil => rfl
  | cons v vs ih =>
    have hint : Reader.int (encode v ++ (vs.flatMap encode ++ rest)) =
        .ok (v, vs.flatMap encode ++ rest) := decode_encode v _
    rw [List.flatMap_cons, List.append_assoc, List.length_cons, Reader.ints, bind_of_ok hint,
      bind_of_ok ih]
    rfl

/-- An integer is written behind what is there, in as many bytes as were foretold, one to five, and
is read back from them whatever follows. So integers that are written one behind the other are read
back one after the other. -/
theorem encode_faithful (v : Int32) (written rest : Bytes) :
    append written v = (written ++ encode v, encodedLength v) ∧
    (encode v).length = encodedLength v ∧ 1 ≤ encodedLength v ∧ encodedLength v ≤ 5 ∧
    decode (encode v ++ rest) = .ok (v, rest) ∧
    ∀ vs : List Int32,
      Reader.ints vs.length ((appendAll written vs ++ rest).drop written.length) =
        .ok (vs, rest) := by
  refine ⟨append_eq written v, length_encode v, Nat.le_add_left 1 _, encodedLength_le v,
    decode_encode v rest, fun vs => ?_⟩
  rw [appendAll_eq, List.append_assoc, List.drop_left]
  exact ints_flatMap_encode vs rest

/-! ### Any bytes -/

def Extended (b : UInt8) : Prop := b &&& 0x80 ≠ 0

instance : DecidablePred Extended := fun _ => inferInstanceAs (Decidable (_ ≠ _))

theorem extended_iff : Extended b ↔ ¬ b < 128 := by
  have hbit : (b &&& 0x80).toNat = (b.toNat.testBit 7).toNat * 128 := by
    rw [UInt8.toNat_and]
    exact Nat.and_two_pow b.toNat 7
  have hlt := b.toNat_lt
  rw [Extended, ← UInt8.toNat_inj.ne, hbit, UInt8.lt_iff_toNat_lt, Nat.testBit_eq_decide_div_mod_eq]
  by_cases h : b.toNat / 2 ^ 7 % 2 = 1
  · rw [decide_eq_true h]
    exact iff_of_true (by decide) (show ¬ b.toNat < 128 by omega)
  · rw [decide_eq_false h]
    exact iff_of_false (by decide) (not_not.mpr (show b.toNat < 128 by omega))

/-- How the bytes that an integer of at most `limit` bytes is read from may begin. -/
inductive Opening (limit : Nat) : Bytes → Prop where
  | ended {before : Bytes} {b : UInt8} (rest : Bytes) (extended : ∀ c ∈ before, Extended c)
      (last : ¬ Extended b) (within : before.length < limit) : Opening limit (before ++ b :: rest)
  | oversized {bs : Bytes} (enough : limit ≤ bs.length) (extended : ∀ c ∈ bs.take limit, Extended c) :
      Opening limit bs
  | truncated {bs : Bytes} (short : bs.length < limit) (extended : ∀ c ∈ bs, Extended c) :
      Opening limit bs

theorem opening (limit : Nat) (bs : Bytes) : Opening limit bs := by
  induction bs generalizing limit with
  | nil =>
    cases limit with
    | zero => exact .oversized (Nat.zero_le _) (by simp)
    | succ limit => exact .truncated (Nat.succ_pos limit) (by simp)
  | cons b bs ih =>
    cases limit with
    | zero => exact .oversized (Nat.zero_le _) (by simp)
    | succ limit =>
      by_cases hb : Extended b
      · cases ih limit with
        | @ended before c rest extended last within =>
          exact @Opening.ended _ (b :: before) c rest (List.forall_mem_cons.mpr ⟨hb, extended⟩) last
            (Nat.succ_lt_succ within)
        | oversized enough extended =>
          refine .oversized (Nat.succ_le_succ enough) ?_
          rw [List.take_succ_cons]
          exact List.forall_mem_cons.mpr ⟨hb, extended⟩
        | truncated short extended =>
          exact .truncated (Nat.succ_lt_succ short) (List.forall_mem_cons.mpr ⟨hb, extended⟩)
      · exact @Opening.ended _ [] b bs (by simp) hb (Nat.succ_pos limit)

theorem Opening.exists_last {i : Nat} (hi : i < limit) (h : bs[i]? = some b) (hb : ¬ Extended b) :
    ∃ before c rest, bs = before ++ c :: rest ∧ (∀ d ∈ before, Extended d) ∧ ¬ Extended c ∧
      before.length < limit := by
  cases opening limit bs with
  | ended rest extended last within => exact ⟨_, _, rest, rfl, extended, last, within⟩
  | oversized enough extended =>
    have hmem : b ∈ bs.take limit := List.mem_of_getElem? ((List.getElem?_take_of_lt hi).trans h)
    exact absurd (extended b hmem) hb
  | truncated short extended => exact absurd (extended b (List.mem_of_getElem? h)) hb

theorem lt_of_not_extended (h : ¬ Extended b) : b < 128 := not_not.mp (mt extended_iff.mpr h)

theorem continuation_of_last (hbefore : ∀ c ∈ before, Extended c) (hb : ¬ Extended b)
    (hwithin : before.length < limit) : ∃ bits < 128 ^ (before.length + 1), ∀ later,
      continuation limit (before ++ b :: later) = .ok (bits, later) := by
  induction before generalizing limit with
  | nil =>
    obtain ⟨limit, rfl⟩ := Nat.exists_eq_add_of_le' hwithin
    have hlow := lt_of_not_extended hb
    exact ⟨b.toNat, hlow, fun later => if_pos hlow⟩
  | cons c before ih =>
    obtain ⟨limit, rfl⟩ := Nat.exists_eq_add_of_le' (Nat.one_le_of_lt hwithin)
    obtain ⟨hc, hbefore⟩ := List.forall_mem_cons.mp hbefore
    obtain ⟨high, hhigh, hread⟩ := ih hbefore (Nat.lt_of_succ_lt_succ hwithin)
    refine ⟨c.toNat % 128 + 128 * high, ?_, fun later => ?_⟩
    · rw [List.length_cons, Nat.pow_succ]
      omega
    · rw [List.cons_append, continuation, if_neg (extended_iff.mp hc), hread]
      rfl

theorem continuation_of_oversized (henough : limit ≤ bs.length)
    (h : ∀ c ∈ bs.take limit, Extended c) :
    continuation limit bs = .error .oversizedInteger := by
  induction limit generalizing bs with
  | zero => rfl
  | succ limit ih =>
    obtain ⟨b, bs, rfl⟩ := List.exists_cons_of_length_pos (Nat.zero_lt_of_lt henough)
    rw [List.take_succ_cons] at h
    obtain ⟨hb, hbs⟩ := List.forall_mem_cons.mp h
    rw [continuation, if_neg (extended_iff.mp hb), ih (Nat.le_of_succ_le_succ henough) hbs]
    rfl

theorem continuation_of_truncated (hshort : bs.length < limit) (h : ∀ c ∈ bs, Extended c) :
    continuation limit bs = .error .truncated := by
  induction bs generalizing limit with
  | nil =>
    obtain ⟨limit, rfl⟩ := Nat.exists_eq_add_of_le' hshort
    rfl
  | cons b bs ih =>
    obtain ⟨limit, rfl⟩ := Nat.exists_eq_add_of_le' (Nat.one_le_of_lt hshort)
    obtain ⟨hb, hbs⟩ := List.forall_mem_cons.mp h
    rw [continuation, if_neg (extended_iff.mp hb), ih (Nat.lt_of_succ_lt_succ hshort) hbs]
    rfl

theorem decode_of_last (hbefore : ∀ c ∈ before, Extended c) (hb : ¬ Extended b)
    (hwithin : before.length < maxLength) : ∃ negative, ∃ bits < 64 * 128 ^ before.length, ∀ later,
      decode (before ++ b :: later) = .ok (ofMagnitude negative bits, later) := by
  cases before with
  | nil =>
    exact ⟨_, b.toNat % 64, Nat.mod_lt _ (by decide), fun later => if_pos (lt_of_not_extended hb)⟩
  | cons c before =>
    obtain ⟨hc, hbefore⟩ := List.forall_mem_cons.mp hbefore
    have hrest : before.length < maxLength - 1 := Nat.lt_of_succ_lt_succ hwithin
    obtain ⟨high, hhigh, hread⟩ := continuation_of_last hbefore hb hrest
    refine ⟨decide (c.toNat / 64 % 2 = 1), c.toNat % 64 + 64 * high, ?_, fun later => ?_⟩
    · rw [List.length_cons]
      omega
    · rw [List.cons_append, decode, if_neg (extended_iff.mp hc), hread]
      rfl

theorem decode_of_oversized (henough : maxLength ≤ bs.length)
    (h : ∀ c ∈ bs.take maxLength, Extended c) : decode bs = .error .oversizedInteger := by
  obtain ⟨b, bs, rfl⟩ := List.exists_cons_of_length_pos (Nat.zero_lt_of_lt henough)
  obtain ⟨hb, hbs⟩ := List.forall_mem_cons.mp h
  have hrest : continuation (maxLength - 1) bs = .error .oversizedInteger :=
    continuation_of_oversized (Nat.le_of_succ_le_succ henough) hbs
  rw [decode, if_neg (extended_iff.mp hb), hrest]
  rfl

theorem decode_of_truncated (hshort : bs.length < maxLength) (h : ∀ c ∈ bs, Extended c) :
    decode bs = .error .truncated := by
  cases bs with
  | nil => rfl
  | cons b bs =>
    obtain ⟨hb, hbs⟩ := List.forall_mem_cons.mp h
    have hrest : continuation (maxLength - 1) bs = .error .truncated :=
      continuation_of_truncated (Nat.lt_of_succ_lt_succ hshort) hbs
    rw [decode, if_neg (extended_iff.mp hb), hrest]
    rfl

/-! ### What is read takes no more bytes when it is written -/

theorem lt_zero_iff : v < 0 ↔ 2147483648 ≤ v.toUInt32.toNat := by
  rw [Int32.lt_iff_toBitVec_slt]
  refine BitVec.slt_zero_iff_msb_cond.trans ?_
  rw [BitVec.msb_eq_decide]
  exact decide_eq_true_iff

theorem magnitude_ofMagnitude (negative : Bool) (h : bits < 2147483648) :
    magnitude (ofMagnitude negative bits) = bits := by
  let word := UInt32.ofNat bits
  have hword : word.toNat = bits := UInt32.toNat_ofNat_of_lt' (Nat.lt_trans h (by decide))
  cases negative with
  | false =>
    have hpos : ¬ word.toInt32 < 0 := by
      rw [lt_zero_iff, UInt32.toUInt32_toInt32, hword]
      exact Nat.not_le_of_lt h
    show magnitude word.toInt32 = bits
    rw [magnitude, if_neg hpos, UInt32.toUInt32_toInt32, hword]
  | true =>
    have hneg : ~~~ word.toInt32 < 0 := by
      rw [lt_zero_iff, Int32.toUInt32_not, UInt32.toUInt32_toInt32, UInt32.toNat_not, hword,
        UInt32.size]
      omega
    show magnitude (~~~ word.toInt32) = bits
    rw [magnitude, if_pos hneg, Int32.not_not, UInt32.toUInt32_toInt32, hword]

theorem encodedLength_ofMagnitude_le (negative : Bool) (h : bits < 64 * 128 ^ k) :
    encodedLength (ofMagnitude negative bits) ≤ k + 1 := by
  rcases Nat.lt_or_ge k 4 with hfew | hfull
  · have hle : 64 * 128 ^ k ≤ 64 * 128 ^ 3 :=
      Nat.mul_le_mul_left 64 (Nat.pow_le_pow_right (by decide) (Nat.le_of_lt_succ hfew))
    rw [encodedLength_le_iff, magnitude_ofMagnitude negative (by omega)]
    exact h
  · exact (encodedLength_le _).trans (Nat.succ_le_succ hfull)

theorem decode_eq_ok (h : decode bs = .ok (v, rest)) : ∃ before b, bs = before ++ b :: rest ∧
    before.length < maxLength ∧ (∀ c ∈ before, Extended c) ∧ ¬ Extended b ∧
    (∀ later, decode (before ++ b :: later) = .ok (v, later)) ∧
    encodedLength v ≤ before.length + 1 := by
  cases opening maxLength bs with
  | @ended before b rest' extended last within =>
    obtain ⟨negative, bits, hbits, hread⟩ := decode_of_last extended last within
    obtain ⟨rfl, rfl⟩ := Prod.mk.inj (Except.ok.inj ((hread rest').symm.trans h))
    exact ⟨before, b, rfl, within, extended, last, hread, encodedLength_ofMagnitude_le _ hbits⟩
  | oversized enough extended =>
    rw [decode_of_oversized enough extended] at h
    cases h
  | truncated short extended =>
    rw [decode_of_truncated short extended] at h
    cases h

theorem exists_decode_iff : (∃ v rest, decode bs = .ok (v, rest)) ↔
    ∃ i < maxLength, ∃ b, bs[i]? = some b ∧ ¬ Extended b := by
  constructor
  · rintro ⟨v, rest, h⟩
    obtain ⟨before, b, rfl, within, -, last, -⟩ := decode_eq_ok h
    have hlast : (before ++ b :: rest)[before.length]? = some b := by
      rw [List.getElem?_append_right le_rfl, Nat.sub_self, List.getElem?_cons_zero]
    exact ⟨before.length, within, b, hlast, last⟩
  · rintro ⟨i, hi, b, hb, hlast⟩
    obtain ⟨before, c, rest, rfl, extended, last, within⟩ := Opening.exists_last hi hb hlast
    obtain ⟨negative, bits, -, hread⟩ := decode_of_last extended last within
    exact ⟨_, rest, hread rest⟩

theorem decode_eq_error_iff {fault : Fault} : decode bs = .error fault ↔
    fault = .oversizedInteger ∧ maxLength ≤ bs.length ∧ (∀ c ∈ bs.take maxLength, Extended c) ∨
    fault = .truncated ∧ bs.length < maxLength ∧ ∀ c ∈ bs, Extended c := by
  constructor
  · intro h
    cases opening maxLength bs with
    | ended rest extended last within =>
      obtain ⟨_, _, -, hread⟩ := decode_of_last extended last within
      rw [hread] at h
      cases h
    | oversized enough extended =>
      rw [decode_of_oversized enough extended] at h
      exact .inl ⟨(Except.error.inj h).symm, enough, extended⟩
    | truncated short extended =>
      rw [decode_of_truncated short extended] at h
      exact .inr ⟨(Except.error.inj h).symm, short, extended⟩
  · rintro (⟨rfl, enough, extended⟩ | ⟨rfl, short, extended⟩)
    · exact decode_of_oversized enough extended
    · exact decode_of_truncated short extended

/-- An integer ends with the first byte that announces no other, if that is one of the first five.
Then it is read from the bytes up to there and from no later one, and takes no more bytes than they
are when it is written again, however it was padded. If the first five bytes all announce another
one it is oversized, and if there are fewer and all do, it is truncated. -/
theorem decode_outcome (bs : Bytes) :
    ((∃ v rest, decode bs = .ok (v, rest)) ↔ ∃ i < 5, ∃ b, bs[i]? = some b ∧ ¬ Extended b) ∧
    (∀ v rest, decode bs = .ok (v, rest) → ∃ before b, bs = before ++ b :: rest ∧
      before.length < 5 ∧ (∀ c ∈ before, Extended c) ∧ ¬ Extended b ∧
      (∀ later, decode (before ++ b :: later) = .ok (v, later)) ∧
      encodedLength v ≤ before.length + 1 ∧ (encode v).length ≤ before.length + 1) ∧
    (decode bs = .error .oversizedInteger ↔ 5 ≤ bs.length ∧ ∀ c ∈ bs.take 5, Extended c) ∧
    (decode bs = .error .truncated ↔ bs.length < 5 ∧ ∀ c ∈ bs, Extended c) := by
  refine ⟨exists_decode_iff, fun v rest h => ?_, ?_, ?_⟩
  · obtain ⟨before, b, hbs, within, extended, last, hread, hshort⟩ := decode_eq_ok h
    exact ⟨before, b, hbs, within, extended, last, hread, hshort, (length_encode v).trans_le hshort⟩
  · rw [decode_eq_error_iff]
    simp [maxLength]
  · rw [decode_eq_error_iff]
    simp [maxLength]

def padded : Bytes := [0xc0, 0x80, 0x80, 0x80, 0x60, 0x07]

theorem decode_outcome_padded : decode padded = .ok (-1, [0x07]) ∧ encodedLength (-1) = 1 ∧
    (∀ later, decode ([0xc0, 0x80, 0x80, 0x80] ++ 0x60 :: later) = .ok (-1, later)) ∧
    (encode (-1)).length ≤ 4 + 1 := by
  have hread : decode padded = .ok (-1, [0x07]) := rfl
  obtain ⟨-, hok, -⟩ := decode_outcome padded
  obtain ⟨before, b, hbs, -, -, -, hlater, -, hshort⟩ := hok _ _ hread
  have hparts : [0xc0, 0x80, 0x80, 0x80] ++ 0x60 :: [0x07] = before ++ b :: [0x07] := hbs
  obtain ⟨rfl, hend⟩ := List.append_inj' hparts rfl
  obtain rfl := (List.cons.inj hend).1
  exact ⟨hread, by decide +kernel, hlater, hshort⟩

end Varint
end ServerDiscovery.Wire
