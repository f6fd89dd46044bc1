import Mathlib.Data.List.Basic
import ServerDiscovery.Proofs.Address.Entry
import ServerDiscovery.Proofs.Address.Spelling

/-! What is printed of an address is a spelling of it, so that it is read as it was printed. -/

namespace ServerDiscovery

open Text Scan

theorem numeral_octet (o : UInt8) : Numeral 10 (some 3) false 255 (decimal o.toNat) o.toNat := by
  have ho : o.toNat < 256 := o.toNat_lt
  have hlen : (digits 10 o.toNat).length ≤ 3 := length_digits_le (by omega) (by omega) (by omega)
  exact numeral_digits (by omega) (by omega) (by omega) (by simpa using hlen) false

theorem numeral_group (g : UInt16) :
    Numeral 16 (some 4) true 65535 (hexadecimal g.toNat) g.toNat := by
  have hg : g.toNat < 65536 := g.toNat_lt
  have hlen : (digits 16 g.toNat).length ≤ 4 := length_digits_le (by omega) (by omega) (by omega)
  exact numeral_digits (by omega) (by omega) (by omega) (by simpa using hlen) true

theorem numeral_port (p : UInt16) : Numeral 10 none true 65535 (decimal p.toNat) p.toNat := by
  have hp : p.toNat < 65536 := p.toNat_lt
  exact numeral_digits (by omega) (by omega) (by omega) (by simp) true

theorem numeral_scope (s : UInt32) : Numeral 10 none true 4294967295 (decimal s.toNat) s.toNat := by
  have hs : s.toNat < 4294967296 := s.toNat_lt
  exact numeral_digits (by omega) (by omega) (by omega) (by simp) true

theorem Ip4.spelling_render (ip : Ip4) : ip.Spelling ip.render := by
  have hrender : ip.render = decimal ip.a.toNat ++ '.' :: (decimal ip.b.toNat ++ '.' ::
      (decimal ip.c.toNat ++ '.' :: decimal ip.d.toNat)) := by
    simp [Ip4.render, Ip4.octets, joinChars, List.intercalate]
  rw [hrender]
  exact .octets (numeral_octet _) (numeral_octet _) (numeral_octet _) (numeral_octet _)

namespace Ip6

def rows (gs : List UInt16) : List Char := gs.flatMap fun g => ':' :: hexadecimal g.toNat

theorem renderGroups_cons (g : UInt16) (gs : List UInt16) :
    renderGroups (g :: gs) = hexadecimal g.toNat ++ rows gs := by
  induction gs generalizing g with
  | nil => simp [renderGroups, joinChars, List.intercalate, rows]
  | cons g' gs ih =>
    have htail := ih g'
    simp only [renderGroups, joinChars, List.intercalate, List.map_cons, rows,
      List.flatMap_cons] at htail ⊢
    rw [List.intersperse_cons_cons, List.flatten_cons, List.flatten_cons, htail]
    simp

theorem row_rows (gs : List UInt16) : Row false (rows gs) gs false := by
  induction gs with
  | nil => exact .nil false
  | cons g gs ih => exact .group (numeral_group g) ih

theorem row_renderGroups (gs : List UInt16) : Row true (renderGroups gs) gs false := by
  cases gs with
  | nil => exact .nil true
  | cons g gs =>
    rw [renderGroups_cons]
    exact .group (numeral_group g) (row_rows gs)

theorem groups_split (gs : List UInt16) (i : Nat) :
    gs.take i ++ List.replicate (zerosFrom gs i) 0 ++ gs.drop (i + zerosFrom gs i) = gs := by
  have hzeros : (gs.drop i).takeWhile (· = 0) = List.replicate (zerosFrom gs i) 0 := by
    refine List.eq_replicate_iff.mpr ⟨rfl, fun g hg => ?_⟩
    have hall := List.all_takeWhile (l := gs.drop i) (p := (· = 0))
    simpa using List.all_eq_true.mp hall g hg
  have hrest : gs.drop (i + zerosFrom gs i) = (gs.drop i).dropWhile (· = 0) := by
    rw [← List.drop_drop]
    conv_lhs => rw [← List.takeWhile_append_dropWhile (p := (· = 0)) (l := gs.drop i)]
    exact List.drop_left
  rw [← hzeros, hrest, List.append_assoc, List.takeWhile_append_dropWhile, List.take_append_drop]

theorem hexadecimal_ffff : hexadecimal (0xffff : UInt16).toNat = ['f', 'f', 'f', 'f'] := by
  show digits 16 65535 = _
  rw [digits_of_le (by omega) (by omega), digits_of_le (by omega) (by omega),
    digits_of_le (by omega) (by omega), digits_of_lt (by omega) (by omega)]
  rfl

theorem spelling_mapped (ip : Ip4) : ip.mapped.Spelling ("::ffff:".toList ++ ip.render) := by
  have hgroup := numeral_group 0xffff
  rw [hexadecimal_ffff] at hgroup
  exact .shortened (.nil true) (.group hgroup (.tail ip.spelling_render))
    (show 3 < 8 by omega)

theorem spelling_render (ip : Ip6) : ip.Spelling ip.render := by
  unfold render
  cases hip : ip.unmapped? with
  | some ip4 =>
    rw [eq_mapped hip]
    exact spelling_mapped ip4
  | none =>
    dsimp only
    generalize longestZeros ip.groups = start
    have hsplit := groups_split ip.groups start
    generalize zerosFrom ip.groups start = zeros at hsplit
    have hgroups : ip.groups.length = 8 := rfl
    split_ifs with hzeros
    · have hlen := congrArg List.length hsplit
      simp only [List.length_append, List.length_replicate] at hlen
      have hspelling := Spelling.shortened (row_renderGroups (ip.groups.take start))
        (row_renderGroups (ip.groups.drop (start + zeros))) (by omega)
      rw [show 8 - (ip.groups.take start).length - (ip.groups.drop (start + zeros)).length = zeros
        by omega, hsplit] at hspelling
      rw [List.append_assoc]
      exact hspelling
    · exact .full (row_renderGroups ip.groups) hgroups

end Ip6

namespace SocketAddress

variable {a : SocketAddress}

theorem spelling_render (h : a.flow = 0) : a.Spelling a.render := by
  cases a with
  | v4 ip p => exact .v4 ip.spelling_render (numeral_port p)
  | v6 ip p flow s =>
    obtain rfl : flow = 0 := h
    unfold render
    dsimp only
    split_ifs with hs
    · obtain rfl := hs
      simpa using Spelling.v6 ip.spelling_render (numeral_port p)
    · simpa using Spelling.zoned ip.spelling_render (numeral_scope s) (numeral_port p)

theorem ofString?_toString (h : a.flow = 0) : ofString? a.toString = some a := by
  rw [ofString?_eq_some_iff, toString, String.toList_ofList]
  exact spelling_render h

end SocketAddress
end ServerDiscovery
