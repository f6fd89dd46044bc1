import Mathlib.Data.List.Basic
import ServerDiscovery.Proofs.Reading
import ServerDiscovery.Proofs.Text.Utf8
import ServerDiscovery.Proofs.Wire.Varint
import ServerDiscovery.Wire.Reader

/-! Each kind of field is read as it was written, whatever follows it. A text may not contain its
own terminator. -/

namespace ServerDiscovery.Wire

def Terminable (s : String) : Prop := '\x00' ∉ s.toList

instance (s : String) : Decidable (Terminable s) := inferInstanceAs (Decidable (¬ _))

def blankChar (c : Char) : Char := if c.val.toNat < 0x20 then ' ' else c

def blankControls (s : String) : String := String.ofList (s.toList.map blankChar)

theorem terminator_not_mem_encode {s : String} (h : Terminable s) :
    terminator ∉ Text.encode s := by
  intro hmem
  obtain ⟨c, hc, hb⟩ := List.mem_flatMap.mp hmem
  rcases Nat.lt_or_ge c.val.toNat 0x20 with hlt | hge
  · rw [Text.utf8EncodeChar_of_lt hlt, List.mem_singleton] at hb
    have hzero := congrArg UInt8.toNat hb
    rw [UInt8.toNat_ofNat_of_lt' (Nat.lt_trans hlt (by decide))] at hzero
    have hnul : c = '\x00' := Char.ext (UInt32.toNat_inj.mp hzero.symm)
    exact h (hnul ▸ hc)
  · exact absurd (Text.le_of_mem_utf8EncodeChar hge _ hb) (by decide)

theorem eq_ok_of_toOption {ε α : Type} {x : Except ε α} {a : α} (h : x.toOption = some a) :
    x = .ok a := by
  cases x with
  | error e => cases h
  | ok a' => exact congrArg _ (Option.some.inj h)

namespace Reader

open Reading

variable {bs rest : Bytes}

theorem int_encode (v : Int32) (rest : Bytes) :
    int ((Field.int v).encode ++ rest) = .ok (v, rest) :=
  Varint.decode_encode v rest

theorem byte_encode (b : UInt8) (rest : Bytes) :
    byte ((Field.byte b).encode ++ rest) = .ok (b, rest) := rfl

theorem rawText_append {raw : Bytes} (h : terminator ∉ raw) (rest : Bytes) :
    rawText (raw ++ terminator :: rest) = .ok (raw, rest) := by
  have hall : ∀ b ∈ raw, (decide (b ≠ terminator)) = true :=
    fun b hb => decide_eq_true fun heq => h (heq ▸ hb)
  unfold rawText
  rw [if_neg (by simp), if_pos (by simp), List.takeWhile_append_of_pos hall,
    List.dropWhile_append_of_pos hall]
  simp

theorem rawText_of_unterminated (h : terminator ∉ bs) :
    rawText bs = .error (if bs.isEmpty then .truncated else .malformed .unterminatedText) := by
  unfold rawText
  rw [if_neg h]
  split_ifs <;> rfl

theorem rawText_eq_ok_iff {raw : Bytes} :
    rawText bs = .ok (raw, rest) ↔ terminator ∉ raw ∧ bs = raw ++ terminator :: rest := by
  constructor
  · intro h
    by_cases hmem : terminator ∈ bs
    · obtain ⟨raw', rest', rfl, hraw⟩ := List.eq_append_cons_of_mem hmem
      rw [rawText_append hraw] at h
      obtain ⟨rfl, rfl⟩ := Prod.mk.inj (Except.ok.inj h)
      exact ⟨hraw, rfl⟩
    · rw [rawText_of_unterminated hmem] at h
      cases h
  · rintro ⟨hraw, rfl⟩
    exact rawText_append hraw rest

theorem rawText_encode {s : String} (h : Terminable s) (rest : Bytes) :
    rawText ((Field.text s).encode ++ rest) = .ok (Text.encode s, rest) := by
  unfold Field.encode
  rw [List.append_assoc]
  exact rawText_append (terminator_not_mem_encode h) rest

theorem text_encode {s : String} (h : Terminable s) (rest : Bytes) :
    text ((Field.text s).encode ++ rest) = .ok (s, rest) := by
  unfold text
  rw [map_of_ok (rawText_encode h rest), Text.decode_encode]

end Reader
end ServerDiscovery.Wire
