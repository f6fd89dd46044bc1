import Mathlib.Algebra.Ring.Nat
import Mathlib.Data.List.TakeWhile
import Mathlib.Tactic.SplitIfs
import ServerDiscovery.Text.Utf8

/-! What was encoded is decoded again: each character takes its own bytes off the front, and leaves
those of the next one. -/

namespace ServerDiscovery.Text

variable {lead : Lead} {b t : UInt8} {bs ps ts rest : Bytes} {c : Char}

theorem decodeChars_ascii (hb : b < 0x80) :
    decodeChars (b :: rest) = Char.ofNat b.toNat :: decodeChars rest := by
  rw [decodeChars, if_pos hb]

/-! ### First bytes -/

theorem Lead.of?_ofNat {n : Nat} (hn : n < 256) : Lead.of? (UInt8.ofNat n) =
    if 0xc2 ≤ n ∧ n ≤ 0xdf then some ⟨1, 0x80, 0xbf⟩
    else if n = 0xe0 then some ⟨2, 0xa0, 0xbf⟩
    else if n = 0xed then some ⟨2, 0x80, 0x9f⟩
    else if 0xe1 ≤ n ∧ n ≤ 0xef then some ⟨2, 0x80, 0xbf⟩
    else if n = 0xf0 then some ⟨3, 0x90, 0xbf⟩
    else if 0xf1 ≤ n ∧ n ≤ 0xf3 then some ⟨3, 0x80, 0xbf⟩
    else if n = 0xf4 then some ⟨3, 0x80, 0x8f⟩
    else none := by
  have hb : (UInt8.ofNat n).toNat = n := UInt8.toNat_ofNat_of_lt' hn
  simp only [Lead.of?, UInt8.le_iff_toNat_le, ← UInt8.toNat_inj, hb, UInt8.reduceToNat]

/-- What the table of first bytes says of each row: which tails may follow the byte, and where the
bits stand that are its own. -/
theorem lead_row (hlead : Lead.of? b = some lead) :
    (0x80 ≤ lead.low.toNat ∧ lead.low ≤ lead.high ∧ lead.high.toNat ≤ 0xbf) ∧
    (lead.tails = 1 ∧ leadBits lead b < 0x20 ∧ b.toNat = leadBits lead b + 0xc0 ∨
      lead.tails = 2 ∧ leadBits lead b < 0x10 ∧ b.toNat = leadBits lead b + 0xe0 ∨
      lead.tails = 3 ∧ leadBits lead b < 0x08 ∧ b.toNat = leadBits lead b + 0xf0) := by
  have hb : UInt8.ofNat b.toNat = b := UInt8.ofNat_toNat
  rw [← hb, Lead.of?_ofNat b.toNat_lt] at hlead
  unfold leadBits
  split_ifs at hlead <;> obtain rfl := Option.some.inj hlead <;> simp <;> omega

theorem tails_ne_zero (hlead : Lead.of? b = some lead) : lead.tails ≠ 0 := by
  obtain ⟨-, hrow⟩ := lead_row hlead
  omega

theorem not_ascii_of_lead (hlead : Lead.of? b = some lead) : ¬ b < 0x80 := by
  obtain ⟨-, hrow⟩ := lead_row hlead
  rw [UInt8.lt_iff_toNat_lt]
  show ¬ b.toNat < 0x80
  omega

/-! ### Tails -/

def IsTail (t : UInt8) : Prop := 0x80 ≤ t ∧ t ≤ 0xbf

def Lead.Admits (lead : Lead) : Bytes → Prop
  | [] => True
  | t :: ts => (lead.low ≤ t ∧ t ≤ lead.high) ∧ (∀ t ∈ ts, IsTail t) ∧ ts.length + 1 ≤ lead.tails

theorem Lead.Admits.length_le (h : lead.Admits ts) : ts.length ≤ lead.tails := by
  cases ts with
  | nil => exact Nat.zero_le _
  | cons t ts => exact h.2.2

theorem Lead.Admits.isTail (h : lead.Admits ts) (hlead : Lead.of? b = some lead) :
    ∀ t ∈ ts, IsTail t := by
  cases ts with
  | nil => exact List.forall_mem_nil _
  | cons t ts =>
    obtain ⟨⟨hlow, -, hhigh⟩, -⟩ := lead_row hlead
    obtain ⟨⟨htlow, hthigh⟩, hts, -⟩ := h
    rw [UInt8.le_iff_toNat_le] at htlow hthigh
    refine List.forall_mem_cons.mpr ⟨?_, hts⟩
    unfold IsTail
    rw [UInt8.le_iff_toNat_le, UInt8.le_iff_toNat_le]
    exact ⟨Nat.le_trans hlow htlow, Nat.le_trans hthigh hhigh⟩

theorem isPrefix_tailsOf (lead : Lead) (rest : Bytes) : tailsOf lead rest <+: rest := by
  cases rest with
  | nil => exact List.nil_prefix
  | cons t rest =>
    rw [tailsOf]
    split_ifs
    · rw [List.cons_prefix_cons]
      exact ⟨rfl, (List.takeWhile_prefix _).trans (List.take_prefix _ _)⟩
    · exact List.nil_prefix

theorem admits_tailsOf (hlead : Lead.of? b = some lead) (rest : Bytes) :
    lead.Admits (tailsOf lead rest) := by
  have htails := tails_ne_zero hlead
  cases rest with
  | nil => trivial
  | cons t rest =>
    rw [tailsOf]
    split_ifs with ht
    · refine ⟨ht, fun u hu => ?_, ?_⟩
      · simpa [IsTail] using List.mem_takeWhile_imp hu
      · have hle := (List.takeWhile_prefix (l := rest.take (lead.tails - 1))
          fun t : UInt8 => 0x80 ≤ t && t ≤ 0xbf).length_le
        rw [List.length_take] at hle
        omega
    · trivial

theorem Lead.Admits.length_le_tailsOf (h : lead.Admits ps) (hps : ps <+: rest) :
    ps.length ≤ (tailsOf lead rest).length := by
  obtain ⟨more, rfl⟩ := hps
  cases ps with
  | nil => exact Nat.zero_le _
  | cons t ps =>
    obtain ⟨ht, hps, hlen⟩ := h
    have hall : ∀ t ∈ ps, (0x80 ≤ t && t ≤ 0xbf) = true := fun t ht => by
      simpa [IsTail] using hps t ht
    have htake : (ps ++ more).take (lead.tails - 1)
        = ps ++ more.take (lead.tails - 1 - ps.length) := by
      rw [List.take_append, List.take_of_length_le (by omega)]
    rw [List.cons_append, tailsOf, if_pos ht, htake, List.takeWhile_append_of_pos hall,
      List.length_cons, List.length_cons, List.length_append]
    omega

theorem tailsOf_append (hlen : (tailsOf lead (ps ++ rest)).length = ps.length) :
    tailsOf lead (ps ++ rest) = ps :=
  (List.prefix_of_prefix_length_le (isPrefix_tailsOf lead _) (List.prefix_append ps rest)
    (Nat.le_of_eq hlen)).eq_of_length hlen

/-! ### Characters -/

def spelled (lead : Lead) (b : UInt8) (tails : Bytes) : Nat :=
  tails.foldl (fun n t => n * 64 + tailBits t) (leadBits lead b)

/-- A character is one byte of ASCII, or a first byte and the tails that it promises. -/
inductive Spelling (c : Char) : Bytes → Prop where
  | ascii {b : UInt8} (small : b < 0x80) (value : c.val.toNat = b.toNat) : Spelling c [b]
  | lead {b : UInt8} {lead : Lead} {ts : Bytes} (first : Lead.of? b = some lead)
    (admits : lead.Admits ts) (complete : ts.length = lead.tails)
    (value : c.val.toNat = spelled lead b ts) : Spelling c (b :: ts)

theorem decodeChars_lead (hlead : Lead.of? b = some lead) (hts : lead.Admits ts)
    (hcomplete : ts.length = lead.tails) (rest : Bytes) :
    decodeChars (b :: (ts ++ rest)) = Char.ofNat (spelled lead b ts) :: decodeChars rest := by
  have hlen : (tailsOf lead (ts ++ rest)).length = ts.length :=
    Nat.le_antisymm (hcomplete ▸ (admits_tailsOf hlead _).length_le)
      (hts.length_le_tailsOf (List.prefix_append ts rest))
  rw [decodeChars, if_neg (not_ascii_of_lead hlead), hlead]
  dsimp only
  rw [tailsOf_append hlen, if_pos hcomplete, List.drop_left]
  rfl

theorem Spelling.decodeChars_append (h : Spelling c bs) (rest : Bytes) :
    decodeChars (bs ++ rest) = c :: decodeChars rest := by
  have hc : Char.ofNat c.val.toNat = c := Char.ofNat_toNat c
  cases h with
  | ascii small value =>
    rw [value] at hc
    rw [List.cons_append, List.nil_append, decodeChars_ascii small, hc]
  | lead first admits complete value =>
    rw [value] at hc
    rw [List.cons_append, decodeChars_lead first admits complete, hc]

theorem between_ofNat {n : Nat} {low high : UInt8} (hn : n < 256) (hlow : low.toNat ≤ n)
    (hhigh : n ≤ high.toNat) : low ≤ UInt8.ofNat n ∧ UInt8.ofNat n ≤ high := by
  rw [UInt8.le_iff_toNat_le, UInt8.le_iff_toNat_le, UInt8.toNat_ofNat_of_lt' hn]
  exact ⟨hlow, hhigh⟩

def tail (bits : Nat) : UInt8 := UInt8.ofNat (bits % 0x40 + 0x80)

theorem isTail_tail (bits : Nat) : IsTail (tail bits) :=
  between_ofNat (by omega) (Nat.le_add_left ..) (by simp; omega)

theorem tailBits_tail (bits : Nat) : tailBits (tail bits) = bits % 64 := by
  unfold tailBits tail
  rw [UInt8.toNat_ofNat_of_lt' (by simp [UInt8.size]; omega)]
  omega

theorem leadBits_ofNat {n : Nat} (lead : Lead) (hn : n < 256) :
    leadBits lead (UInt8.ofNat n) = n % 2 ^ (6 - lead.tails) := by
  unfold leadBits
  rw [UInt8.toNat_ofNat_of_lt' hn]
  rfl

theorem toNat_char (c : Char) :
    c.val.toNat < 0xd800 ∨ 0xdfff < c.val.toNat ∧ c.val.toNat < 0x110000 := c.valid

theorem ofNat_char (c : Char) : Char.ofNat c.val.toNat = c := Char.ofNat_toNat c

theorem utf8EncodeChar_eq {v : Nat} (hv : c.val.toNat = v) : String.utf8EncodeChar c =
    if v ≤ 0x7f then [UInt8.ofNat v]
    else if v ≤ 0x7ff then [UInt8.ofNat (v / 64 % 0x20 + 0xc0), tail v]
    else if v ≤ 0xffff then [UInt8.ofNat (v / 4096 % 0x10 + 0xe0), tail (v / 64), tail v]
    else [UInt8.ofNat (v / 262144 % 0x08 + 0xf0), tail (v / 4096), tail (v / 64), tail v] := by
  unfold String.utf8EncodeChar
  rw [hv]
  rfl

theorem utf8EncodeChar_one {v : Nat} (hv : c.val.toNat = v) (hhigh : v < 0x80) :
    String.utf8EncodeChar c = [UInt8.ofNat v] := by
  rw [utf8EncodeChar_eq hv, if_pos (by omega)]

theorem utf8EncodeChar_two {v : Nat} (hv : c.val.toNat = v) (hlow : 0x80 ≤ v) (hhigh : v < 0x800) :
    String.utf8EncodeChar c = [UInt8.ofNat (v / 64 + 0xc0), tail v] := by
  rw [utf8EncodeChar_eq hv, if_neg (by omega), if_pos (by omega), Nat.mod_eq_of_lt (by omega)]

theorem utf8EncodeChar_three {v : Nat} (hv : c.val.toNat = v) (hlow : 0x800 ≤ v)
    (hhigh : v < 0x10000) :
    String.utf8EncodeChar c = [UInt8.ofNat (v / 4096 + 0xe0), tail (v / 64), tail v] := by
  rw [utf8EncodeChar_eq hv, if_neg (by omega), if_neg (by omega), if_pos (by omega),
    Nat.mod_eq_of_lt (by omega)]

theorem utf8EncodeChar_four {v : Nat} (hv : c.val.toNat = v) (hlow : 0x10000 ≤ v)
    (hhigh : v < 0x110000) : String.utf8EncodeChar c =
      [UInt8.ofNat (v / 262144 + 0xf0), tail (v / 4096), tail (v / 64), tail v] := by
  rw [utf8EncodeChar_eq hv, if_neg (by omega), if_neg (by omega), if_neg (by omega),
    Nat.mod_eq_of_lt (by omega)]

theorem lead_three {v : Nat} (hlow : 0x800 ≤ v) (hhigh : v < 0x10000)
    (hvalid : v < 0xd800 ∨ 0xdfff < v ∧ v < 0x110000) :
    ∃ low high : UInt8, Lead.of? (UInt8.ofNat (v / 4096 + 0xe0)) = some ⟨2, low, high⟩ ∧
      low ≤ tail (v / 64) ∧ tail (v / 64) ≤ high := by
  have htail : v / 64 % 0x40 + 0x80 < 256 := by omega
  rw [Lead.of?_ofNat (by omega)]
  split_ifs with h₁ h₂ h₃ h₄ h₅ h₆ h₇
  all_goals try omega
  -- Left are the first byte that narrows below, the one that narrows above, and all others.
  · exact ⟨0xa0, 0xbf, rfl, between_ofNat htail (by simp; omega) (by simp; omega)⟩
  · exact ⟨0x80, 0x9f, rfl, between_ofNat htail (by simp) (by simp; omega)⟩
  · exact ⟨0x80, 0xbf, rfl, between_ofNat htail (by simp) (by simp; omega)⟩

theorem lead_four {v : Nat} (hlow : 0x10000 ≤ v) (hhigh : v < 0x110000) :
    ∃ low high : UInt8, Lead.of? (UInt8.ofNat (v / 262144 + 0xf0)) = some ⟨3, low, high⟩ ∧
      low ≤ tail (v / 4096) ∧ tail (v / 4096) ≤ high := by
  have htail : v / 4096 % 0x40 + 0x80 < 256 := by omega
  rw [Lead.of?_ofNat (by omega)]
  split_ifs with h₁ h₂ h₃ h₄ h₅ h₆ h₇
  all_goals try omega
  · exact ⟨0x90, 0xbf, rfl, between_ofNat htail (by simp; omega) (by simp; omega)⟩
  · exact ⟨0x80, 0xbf, rfl, between_ofNat htail (by simp) (by simp; omega)⟩
  · exact ⟨0x80, 0x8f, rfl, between_ofNat htail (by simp) (by simp; omega)⟩

theorem spelling_encode (c : Char) : Spelling c (String.utf8EncodeChar c) := by
  have hvalid := toNat_char c
  generalize hv : c.val.toNat = v at hvalid
  by_cases hone : v < 0x80
  · have hb : (UInt8.ofNat v).toNat = v := UInt8.toNat_ofNat_of_lt' (Nat.lt_trans hone (by decide))
    rw [utf8EncodeChar_one hv hone]
    exact .ascii (UInt8.lt_iff_toNat_lt.mpr (hb.symm ▸ hone)) (hv.trans hb.symm)
  have hlow : 0x80 ≤ v := Nat.le_of_not_lt hone
  by_cases htwo : v < 0x800
  · have hn : v / 64 + 0xc0 < 256 := by omega
    have hlead := Lead.of?_ofNat hn
    rw [if_pos (by omega)] at hlead
    rw [utf8EncodeChar_two hv hlow htwo]
    refine .lead hlead ⟨isTail_tail v, List.forall_mem_nil _, Nat.le_refl 1⟩ rfl ?_
    simp only [spelled, List.foldl_cons, List.foldl_nil, leadBits_ofNat _ hn, tailBits_tail]
    omega
  have hlow : 0x800 ≤ v := Nat.le_of_not_lt htwo
  by_cases hthree : v < 0x10000
  · have hn : v / 4096 + 0xe0 < 256 := by omega
    obtain ⟨low, high, hlead, hrange⟩ := lead_three hlow hthree hvalid
    rw [utf8EncodeChar_three hv hlow hthree]
    refine .lead hlead ⟨hrange, List.forall_mem_singleton.mpr (isTail_tail v), Nat.le_refl 2⟩ rfl ?_
    simp only [spelled, List.foldl_cons, List.foldl_nil, leadBits_ofNat _ hn, tailBits_tail]
    omega
  · have hlow : 0x10000 ≤ v := Nat.le_of_not_lt hthree
    have hn : v / 262144 + 0xf0 < 256 := by omega
    obtain ⟨low, high, hlead, hrange⟩ := lead_four hlow (by omega)
    have htails : ∀ t ∈ [tail (v / 64), tail v], IsTail t :=
      List.forall_mem_cons.mpr ⟨isTail_tail _, List.forall_mem_singleton.mpr (isTail_tail v)⟩
    rw [utf8EncodeChar_four hv hlow (by omega)]
    refine .lead hlead ⟨hrange, htails, Nat.le_refl 3⟩ rfl ?_
    simp only [spelled, List.foldl_cons, List.foldl_nil, leadBits_ofNat _ hn, tailBits_tail]
    omega

theorem decodeChars_flatMap (cs : List Char) :
    decodeChars (cs.flatMap String.utf8EncodeChar) = cs := by
  induction cs with
  | nil => rw [List.flatMap_nil, decodeChars]
  | cons c cs ih => rw [List.flatMap_cons, (spelling_encode c).decodeChars_append, ih]

theorem decode_encode (s : String) : decode (encode s) = s := by
  unfold decode encode
  rw [decodeChars_flatMap, String.ofList_toList]

theorem le_of_mem_utf8EncodeChar (h : 0x20 ≤ c.val.toNat) :
    ∀ b ∈ String.utf8EncodeChar c, 0x20 ≤ b := by
  have hle : ∀ b : UInt8, 0x80 ≤ b → 0x20 ≤ b := fun b hb => UInt8.le_trans (by decide) hb
  have hspelling := spelling_encode c
  generalize String.utf8EncodeChar c = bs at hspelling ⊢
  cases hspelling with
  | ascii small value =>
    rw [List.forall_mem_singleton, UInt8.le_iff_toNat_le, ← value]
    exact h
  | lead first admits =>
    have hfirst := UInt8.not_lt.mp (not_ascii_of_lead first)
    exact List.forall_mem_cons.mpr ⟨hle _ hfirst, fun t ht => hle t (admits.isTail first t ht).1⟩

theorem utf8EncodeChar_of_lt (h : c.val.toNat < 0x20) :
    String.utf8EncodeChar c = [UInt8.ofNat c.val.toNat] :=
  utf8EncodeChar_one rfl (Nat.lt_trans h (by decide))

end ServerDiscovery.Text
