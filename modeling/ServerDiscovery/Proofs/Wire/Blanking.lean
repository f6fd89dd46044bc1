import ServerDiscovery.Proofs.Text.Grammar
import ServerDiscovery.Proofs.Wire.Reader

/-! Control bytes are blanked before the bytes are decoded. What comes out is the text that the bytes
would have been, with its control characters blanked: no other character changes, and no replacement
comes or goes. -/

namespace ServerDiscovery.Wire

open Reading

variable {s : String}

def blankCharBut (keep : Bytes) (c : Char) : Char :=
  if c.val.toNat < 0x20 ∧ c.val.toNat ∉ keep.map UInt8.toNat then ' ' else c

def blankControlsBut (keep : Bytes) (s : String) : String :=
  String.ofList (s.toList.map (blankCharBut keep))

theorem keepsAscii_blank (keep : Bytes) : Text.KeepsAscii (blank keep) where
  ascii b hb := by
    unfold blank
    split_ifs
    · decide
    · exact hb
  beyond b hb := if_neg fun h => UInt8.not_lt.mpr (UInt8.le_trans (by decide) hb) h.1

theorem blank_ofNat (keep : Bytes) {n : Nat} (hn : n < 256) :
    blank keep (UInt8.ofNat n) =
      if n < 0x20 ∧ n ∉ keep.map UInt8.toNat then 0x20 else UInt8.ofNat n := by
  have hbyte : (UInt8.ofNat n).toNat = n := UInt8.toNat_ofNat_of_lt' hn
  have hcontrol : UInt8.ofNat n < 0x20 ↔ n < 0x20 := by
    rw [UInt8.lt_iff_toNat_lt, hbyte]
    rfl
  have hkeep : UInt8.ofNat n ∈ keep ↔ n ∈ keep.map UInt8.toNat := by
    constructor
    · intro hmem
      exact List.mem_map.mpr ⟨_, hmem, hbyte⟩
    · intro hmem
      obtain ⟨b, hb, rfl⟩ := List.mem_map.mp hmem
      rwa [UInt8.ofNat_toNat]
  exact if_congr (and_congr hcontrol (not_congr hkeep)) rfl rfl

theorem charMap_blank (keep : Bytes) (c : Char) :
    Text.charMap (blank keep) c = blankCharBut keep c := by
  rcases Nat.lt_or_ge c.val.toNat 0x80 with hlt | hge
  · have hbyte : (UInt8.ofNat c.val.toNat).toNat = c.val.toNat :=
      UInt8.toNat_ofNat_of_lt' (Nat.lt_trans hlt (by decide))
    unfold Text.charMap blankCharBut
    rw [if_pos hlt, blank_ofNat keep (Nat.lt_trans hlt (by decide))]
    split_ifs
    · rfl
    · rw [hbyte, Text.ofNat_char]
  · rw [Text.charMap_of_le hge]
    exact (if_neg fun h => absurd h.1 (by omega)).symm

theorem decode_map_blank (keep bs : Bytes) :
    Text.decode (bs.map (blank keep)) = blankControlsBut keep (Text.decode bs) := by
  unfold Text.decode blankControlsBut
  rw [(keepsAscii_blank keep).decodeChars_map, String.toList_ofList,
    List.map_congr_left fun c _ => charMap_blank keep c]

theorem blankControlsBut_nil (s : String) : blankControlsBut [] s = blankControls s := by
  have hchar : blankCharBut [] = blankChar := by
    funext c
    simp [blankCharBut, blankChar]
  rw [blankControlsBut, hchar, blankControls]

namespace Reader

theorem blankedText_eq_map (keep : Bytes) : blankedText keep = blankControlsBut keep <$> text := by
  unfold blankedText text
  rw [Functor.map_map]
  exact congrArg (· <$> rawText) (funext (decode_map_blank keep))

theorem blankedText_encode (h : Terminable s) (rest : Bytes) :
    blankedText [] ((Field.text s).encode ++ rest) = .ok (blankControls s, rest) := by
  rw [blankedText_eq_map, map_of_ok (text_encode h rest), blankControlsBut_nil]

/-- A text that is blanked fails where the text would have failed, takes the same bytes, and comes out
as it would have, but for the control characters that are not kept, which are blanks. As bytes need
be no text, it says besides what they come out as: the characters that they spell up to the
terminator, and one replacement for each part, as long as can be, that could only have begun one. -/
theorem blankedText_faithful (keep bs : Bytes) :
    blankedText keep bs = (text bs).map (fun (s, rest) => (blankControlsBut keep s, rest)) ∧
      ∀ s rest, text bs = .ok (s, rest) → ∃ raw, terminator ∉ raw ∧ bs = raw ++ terminator :: rest ∧
        Text.Decodes raw s.toList := by
  constructor
  · rw [blankedText_eq_map]
    exact map_apply (blankControlsBut keep) text bs
  · intro s rest h
    obtain ⟨raw, hraw, rfl⟩ := map_eq_ok_iff.mp h
    obtain ⟨hterminator, hbs⟩ := rawText_eq_ok_iff.mp hraw
    refine ⟨raw, hterminator, hbs, ?_⟩
    rw [Text.decode, String.toList_ofList]
    exact Text.decodes_decodeChars raw

def garbled : Bytes := [0xf0, 0x9f, 0x92, 0x01, 0x09, 0x80, 0x61, 0x00, 0x62]

theorem blankedText_faithful_garbled :
    text garbled = .ok ("\uFFFD\x01\t\uFFFDa", [0x62]) ∧
      blankedText layoutControls garbled = .ok ("\uFFFD \t\uFFFDa", [0x62]) ∧
      ∃ raw, terminator ∉ raw ∧ garbled = raw ++ terminator :: [0x62] ∧
        Text.Decodes raw "\uFFFD\x01\t\uFFFDa".toList := by
  obtain ⟨hblanked, hdecodes⟩ := blankedText_faithful layoutControls garbled
  have htext : text garbled = .ok ("\uFFFD\x01\t\uFFFDa", [0x62]) := by decide +kernel
  refine ⟨htext, ?_, hdecodes _ _ htext⟩
  rw [hblanked, htext]
  decide +kernel

end Reader
end ServerDiscovery.Wire
