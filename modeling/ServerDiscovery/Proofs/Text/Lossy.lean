import ServerDiscovery.Proofs.Text.Utf8

/-! What bytes decode to that need be no text. Neither a replacement nor a character of several
bytes lies in ASCII, so the ASCII characters of what was decoded are bytes that were there. -/

namespace ServerDiscovery.Text

variable {lead : Lead} {b t : UInt8} {bs ts rest : Bytes} {c : Char}

/-- What the first two bytes of a character come to, when so many tails follow the first: too much
for a shorter spelling, no surrogate, and nothing beyond the last character. -/
def Opens : Nat → Nat → Prop
  | 1, n => 0x80 ≤ n ∧ n < 0x800
  | 2, n => 0x20 ≤ n ∧ n < 0x360 ∨ 0x380 ≤ n ∧ n < 0x400
  | 3, n => 0x10 ≤ n ∧ n < 0x110
  | _, _ => False

theorem opens_of_lead (hlead : Lead.of? b = some lead) (hlow : lead.low ≤ t)
    (hhigh : t ≤ lead.high) : Opens lead.tails (leadBits lead b * 64 + tailBits t) := by
  have hb : UInt8.ofNat b.toNat = b := UInt8.ofNat_toNat
  rw [← hb, Lead.of?_ofNat b.toNat_lt] at hlead
  rw [UInt8.le_iff_toNat_le] at hlow hhigh
  unfold leadBits tailBits
  -- One case for each row of the table, with its range of first and of second bytes.
  split_ifs at hlead <;> obtain rfl := Option.some.inj hlead <;>
    simp only [Opens, UInt8.reduceToNat, Nat.pow_eq, Nat.reduceSub, Nat.reducePow]
      at hlow hhigh ⊢ <;>
    omega

def tailCount (v : Nat) : Nat :=
  if v < 0x80 then 0 else if v < 0x800 then 1 else if v < 0x10000 then 2 else 3

theorem le_of_tailCount_ne_zero {v : Nat} (h : tailCount v ≠ 0) : 0x80 ≤ v :=
  Nat.le_of_not_lt fun hlt => h (if_pos hlt)

theorem isValidChar_spelled
    (hopens : Opens (ts.length + 1) (leadBits lead b * 64 + tailBits t)) :
    (spelled lead b (t :: ts)).isValidChar ∧ tailCount (spelled lead b (t :: ts)) = ts.length + 1 := by
  have hbits : ∀ t : UInt8, tailBits t < 64 := fun t => Nat.mod_lt _ (by decide)
  unfold spelled Nat.isValidChar
  rw [List.foldl_cons]
  generalize leadBits lead b * 64 + tailBits t = n at hopens ⊢
  match ts, hopens with
  | [], hopens =>
    simp only [Opens, List.length_nil, Nat.zero_add, List.foldl_nil] at hopens ⊢
    rw [tailCount, if_neg (by omega), if_pos (by omega)]
    omega
  | [u], hopens =>
    have hu := hbits u
    simp only [Opens, List.length_cons, List.length_nil, Nat.zero_add, List.foldl_cons,
      List.foldl_nil] at hopens ⊢
    rw [tailCount, if_neg (by omega), if_neg (by omega), if_pos (by omega)]
    omega
  | [u, v], hopens =>
    have hu := hbits u
    have hv := hbits v
    simp only [Opens, List.length_cons, List.length_nil, Nat.zero_add, List.foldl_cons,
      List.foldl_nil] at hopens ⊢
    rw [tailCount, if_neg (by omega), if_neg (by omega), if_neg (by omega)]
    omega
  | _ :: _ :: _ :: _, hopens => exact hopens.elim

theorem toNat_ofNat {n : Nat} (h : n.isValidChar) : (Char.ofNat n).val.toNat = n := by
  rw [Char.ofNat, dif_pos h]
  rfl

theorem Lead.Admits.isValidChar (h : lead.Admits ts) (hlead : Lead.of? b = some lead)
    (hcomplete : ts.length = lead.tails) :
    (spelled lead b ts).isValidChar ∧ tailCount (spelled lead b ts) = lead.tails := by
  cases ts with
  | nil => exact absurd hcomplete.symm (tails_ne_zero hlead)
  | cons t ts =>
    have hopens := opens_of_lead hlead h.1.1 h.1.2
    rw [← hcomplete] at hopens ⊢
    exact isValidChar_spelled hopens

theorem le_of_lead (hlead : Lead.of? b = some lead) :
    0x80 ≤ (if (tailsOf lead rest).length = lead.tails then
      Char.ofNat (spelled lead b (tailsOf lead rest)) else replacement).val.toNat := by
  split_ifs with hlen
  · obtain ⟨hvalid, htails⟩ := (admits_tailsOf hlead rest).isValidChar hlead hlen
    rw [toNat_ofNat hvalid]
    exact le_of_tailCount_ne_zero (htails ▸ tails_ne_zero hlead)
  · decide

theorem mem_of_mem_decodeChars (hc : c ∈ decodeChars bs) (hascii : c.val.toNat < 0x80) :
    UInt8.ofNat c.val.toNat ∈ bs := by
  induction bs using decodeChars.induct with
  | case1 =>
    rw [decodeChars] at hc
    exact absurd hc List.not_mem_nil
  | case2 b rest hb ih =>
    rw [decodeChars_ascii hb, List.mem_cons] at hc
    rcases hc with rfl | hc
    · have hvalid : b.toNat.isValidChar :=
        Or.inl (Nat.lt_trans (UInt8.lt_iff_toNat_lt.mp hb) (by decide))
      rw [toNat_ofNat hvalid, UInt8.ofNat_toNat]
      exact List.mem_cons_self
    · exact List.mem_cons_of_mem _ (ih hc)
  | case3 b rest hb hlead ih =>
    rw [decodeChars, if_neg hb, hlead] at hc
    rcases List.mem_cons.mp hc with rfl | hc
    · exact absurd hascii (by decide)
    · exact List.mem_cons_of_mem _ (ih hc)
  | case4 b rest hb lead hlead tails ih =>
    rw [decodeChars, if_neg hb, hlead] at hc
    rcases List.mem_cons.mp hc with rfl | hc
    · exact absurd hascii (Nat.not_lt_of_le (le_of_lead hlead))
    · exact List.mem_cons_of_mem _ (List.mem_of_mem_drop (ih hc))

/-! ### Bytes put in the place of others -/

section Map

variable {f : UInt8 → UInt8}

def charMap (f : UInt8 → UInt8) (c : Char) : Char :=
  if c.val.toNat < 0x80 then Char.ofNat (f (UInt8.ofNat c.val.toNat)).toNat else c

theorem charMap_of_le (h : 0x80 ≤ c.val.toNat) : charMap f c = c := if_neg (Nat.not_lt_of_le h)

theorem charMap_ofNat (hb : b < 0x80) : charMap f (Char.ofNat b.toNat) = Char.ofNat (f b).toNat := by
  have hlt : b.toNat < 0x80 := UInt8.lt_iff_toNat_lt.mp hb
  have hb : (Char.ofNat b.toNat).val.toNat = b.toNat :=
    toNat_ofNat (Or.inl (Nat.lt_trans hlt (by decide)))
  unfold charMap
  rw [hb, if_pos hlt, UInt8.ofNat_toNat]

/-- Bytes of ASCII are changed into such bytes, and all others are left. -/
structure KeepsAscii (f : UInt8 → UInt8) : Prop where
  ascii : ∀ b < 0x80, f b < 0x80
  beyond : ∀ b, 0x80 ≤ b → f b = b

theorem KeepsAscii.between_iff (hf : KeepsAscii f) {low high : UInt8} (hlow : 0x80 ≤ low) :
    low ≤ f t ∧ f t ≤ high ↔ low ≤ t ∧ t ≤ high := by
  rcases UInt8.lt_or_le t 0x80 with ht | ht
  · have hft := hf.ascii t ht
    have hnot : ∀ u : UInt8, u < 0x80 → ¬ low ≤ u := fun u hu hle =>
      UInt8.not_lt.mpr (UInt8.le_trans hlow hle) hu
    exact iff_of_false (fun h => hnot _ hft h.1) (fun h => hnot _ ht h.1)
  · rw [hf.beyond t ht]

theorem KeepsAscii.tailsOf_map (hf : KeepsAscii f) (hlead : Lead.of? b = some lead) (rest : Bytes) :
    tailsOf lead (rest.map f) = tailsOf lead rest := by
  cases rest with
  | nil => rfl
  | cons t rest =>
    have hlow : 0x80 ≤ lead.low := UInt8.le_iff_toNat_le.mpr (lead_row hlead).1.1
    have htails : (fun t : UInt8 => 0x80 ≤ t && t ≤ 0xbf) ∘ f = fun t => 0x80 ≤ t && t ≤ 0xbf := by
      funext t
      have hiff : 0x80 ≤ f t ∧ f t ≤ 0xbf ↔ 0x80 ≤ t ∧ t ≤ 0xbf :=
        hf.between_iff (UInt8.le_refl 0x80)
      simp only [Function.comp_apply, ← Bool.decide_and]
      exact decide_eq_decide.mpr hiff
    rw [List.map_cons, tailsOf, tailsOf, ← List.map_take, List.takeWhile_map, htails]
    by_cases ht : lead.low ≤ t ∧ t ≤ lead.high
    · have hkept : ∀ u ∈ (rest.take (lead.tails - 1)).takeWhile fun t => 0x80 ≤ t && t ≤ 0xbf,
          f u = id u := by
        intro u hu
        have hrange := List.mem_takeWhile_imp hu
        simp only [Bool.and_eq_true, decide_eq_true_eq] at hrange
        exact hf.beyond u hrange.1
      rw [if_pos ht, if_pos ((hf.between_iff hlow).mpr ht),
        hf.beyond t (UInt8.le_trans hlow ht.1), List.map_congr_left hkept, List.map_id]
    · rw [if_neg ht, if_neg (mt (hf.between_iff hlow).mp ht)]

theorem KeepsAscii.decodeChars_map (hf : KeepsAscii f) (bs : Bytes) :
    decodeChars (bs.map f) = (decodeChars bs).map (charMap f) := by
  induction bs using decodeChars.induct with
  | case1 => rw [List.map_nil, decodeChars, List.map_nil]
  | case2 b rest hb ih =>
    rw [List.map_cons, decodeChars_ascii hb, decodeChars_ascii (hf.ascii b hb), List.map_cons,
      charMap_ofNat hb, ih]
  | case3 b rest hb hlead ih =>
    rw [List.map_cons, hf.beyond b (UInt8.not_lt.mp hb), decodeChars, if_neg hb, hlead, decodeChars,
      if_neg hb, hlead]
    dsimp only
    rw [List.map_cons, ih]
    rfl
  | case4 b rest hb lead hlead tails ih =>
    rw [List.map_cons, hf.beyond b (UInt8.not_lt.mp hb), decodeChars, if_neg hb, hlead, decodeChars,
      if_neg hb, hlead]
    dsimp only
    rw [hf.tailsOf_map hlead, List.map_cons, ← List.map_drop, ih]
    exact congrArg (· :: _) (charMap_of_le (le_of_lead hlead)).symm

end Map

end ServerDiscovery.Text
