/-! Byte strings, and the words written into them high byte first. -/

namespace ServerDiscovery

abbrev Bytes := List UInt8

namespace Bytes

def ofUInt16 (w : UInt16) : Bytes :=
  [UInt8.ofNat (w.toNat / 256), UInt8.ofNat w.toNat]

def toUInt16 (hi lo : UInt8) : UInt16 :=
  UInt16.ofNat (hi.toNat * 256 + lo.toNat)

def ofInt32 (v : Int32) : Bytes :=
  let n := v.toUInt32.toNat
  [UInt8.ofNat (n / 16777216), UInt8.ofNat (n / 65536), UInt8.ofNat (n / 256), UInt8.ofNat n]

def toInt32 (a b c d : UInt8) : Int32 :=
  (UInt32.ofNat (a.toNat * 16777216 + b.toNat * 65536 + c.toNat * 256 + d.toNat)).toInt32

/-- The word whose first byte stands at `offset`, if all four bytes are there. -/
def int32At? (offset : Nat) (bs : Bytes) : Option Int32 :=
  match bs.drop offset with
  | a :: b :: c :: d :: _ => some (toInt32 a b c d)
  | _ => none

@[simp] theorem length_ofUInt16 (w : UInt16) : (ofUInt16 w).length = 2 := rfl

@[simp] theorem length_ofInt32 (v : Int32) : (ofInt32 v).length = 4 := rfl

theorem toUInt16_bytes (w : UInt16) :
    toUInt16 (UInt8.ofNat (w.toNat / 256)) (UInt8.ofNat w.toNat) = w := by
  apply UInt16.toNat_inj.mp
  have := w.toNat_lt
  simp only [toUInt16, UInt16.toNat_ofNat', UInt8.toNat_ofNat']
  omega

theorem toInt32_bytes (v : Int32) :
    toInt32 (UInt8.ofNat (v.toUInt32.toNat / 16777216)) (UInt8.ofNat (v.toUInt32.toNat / 65536))
      (UInt8.ofNat (v.toUInt32.toNat / 256)) (UInt8.ofNat v.toUInt32.toNat) = v := by
  have h : ∀ w : UInt32, UInt32.ofNat ((UInt8.ofNat (w.toNat / 16777216)).toNat * 16777216
      + (UInt8.ofNat (w.toNat / 65536)).toNat * 65536
      + (UInt8.ofNat (w.toNat / 256)).toNat * 256 + (UInt8.ofNat w.toNat).toNat) = w := by
    intro w
    apply UInt32.toNat_inj.mp
    have := w.toNat_lt
    simp only [UInt32.toNat_ofNat', UInt8.toNat_ofNat']
    omega
  rw [toInt32, h]
  rfl

end Bytes
end ServerDiscovery
