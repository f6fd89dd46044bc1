import Mathlib.Data.List.Nodup
import Mathlib.Data.List.Perm.Basic
import ServerDiscovery.Proofs.Address.Endpoint
import ServerDiscovery.Survey.Passes

/-! The table of a survey has the addresses of its records for keys. Where each record carries the
text of the endpoint that was asked for it, the table says exactly which endpoints have answered. -/

namespace ServerDiscovery.Survey

/-- What is known of endpoints goes by their own texts. -/
def Faithful (A : List Endpoint) (f : Endpoint → Option ServerRecord) : Prop :=
  ∀ a ∈ A, ∀ r, f a = some r → r.address = a.toString

variable {A : List Endpoint} {f g : Endpoint → Option ServerRecord} {rs rs' : List ServerRecord}

theorem Faithful.or (hf : Faithful A f) (hg : Faithful A g) :
    Faithful A fun a => (f a).or (g a) := by
  intro a ha r h
  rcases Option.or_eq_some_iff.mp h with h | ⟨-, h⟩
  · exact hf a ha r h
  · exact hg a ha r h

theorem Faithful.nodup (hf : Faithful A f) (hA : A.Nodup) :
    ((A.filterMap f).map ServerRecord.address).Nodup := by
  rw [List.map_filterMap]
  refine List.pairwise_filterMap.mpr (hA.pairwise_of_forall_ne fun a ha b hb hne => ?_)
  intro x hx y hy hxy
  obtain ⟨r, hr, rfl⟩ := Option.map_eq_some_iff.mp hx
  obtain ⟨r', hr', rfl⟩ := Option.map_eq_some_iff.mp hy
  rw [hf a ha r hr, hf b hb r' hr'] at hxy
  exact hne (Endpoint.toString_injective hxy)

theorem perm_filterMap_or (A : List Endpoint) (f g : Endpoint → Option ServerRecord) :
    (A.filterMap f ++ (A.filter fun a => (f a).isNone).filterMap g).Perm
      (A.filterMap fun a => (f a).or (g a)) := by
  induction A with
  | nil => exact .refl _
  | cons a A ih =>
    cases hf : f a with
    | some r => simpa [hf] using ih
    | none =>
      cases hg : g a with
      | none => simpa [hf, hg] using ih
      | some r =>
        simp only [List.filterMap_cons, hf, hg, List.filter_cons, Option.isNone_none, if_true,
          Option.none_or]
        exact List.perm_middle.trans (ih.cons r)

namespace Table

def of (rs : List ServerRecord) : Table := rs.map fun r => (r.address, r)

theorem records_of (rs : List ServerRecord) : (of rs).records = rs := by
  unfold of records
  rw [List.map_map]
  exact List.map_id rs

theorem put_of {r : ServerRecord} (h : r.address ∉ rs.map ServerRecord.address) :
    (of rs).put r = of (rs ++ [r]) := by
  have hkept : (of rs).filter (fun entry => entry.1 ≠ r.address) = of rs := by
    refine List.filter_eq_self.mpr fun entry hentry => ?_
    obtain ⟨r', hr', rfl⟩ := List.mem_map.mp hentry
    exact decide_eq_true fun heq => h (heq ▸ List.mem_map_of_mem hr')
  unfold put
  rw [hkept]
  simp [of]

theorem foldl_put (h : ((rs ++ rs').map ServerRecord.address).Nodup) :
    rs'.foldl put (of rs) = of (rs ++ rs') := by
  induction rs' generalizing rs with
  | nil => rw [List.foldl_nil, List.append_nil]
  | cons r rs' ih =>
    rw [List.append_cons] at h
    have hnew : r.address ∉ rs.map ServerRecord.address := by
      rw [List.map_append, List.map_append] at h
      have hdisjoint := List.disjoint_of_nodup_append (List.Nodup.of_append_left h)
      exact fun hmem => hdisjoint hmem (by simp)
    rw [List.foldl_cons, put_of hnew, ih h, List.append_assoc]
    rfl

theorem missing_of (hf : Faithful A f) (h : rs.Perm (A.filterMap f)) :
    (of rs).missing A = A.filter fun a => (f a).isNone := by
  refine List.filter_congr fun a ha => ?_
  rw [Bool.eq_iff_iff, Option.isNone_iff_eq_none, Option.isNone_iff_eq_none, List.lookup_eq_none_iff]
  constructor
  · intro hall
    by_contra hsome
    obtain ⟨r, hr⟩ := Option.ne_none_iff_exists'.mp hsome
    have hmem : (r.address, r) ∈ of rs :=
      List.mem_map_of_mem (h.mem_iff.mpr (List.mem_filterMap.mpr ⟨a, ha, hr⟩))
    have hne := hall _ hmem
    rw [hf a ha r hr] at hne
    simp at hne
  · intro hnone entry hentry
    obtain ⟨r, hr, rfl⟩ := List.mem_map.mp hentry
    -- The record of another endpoint has another text, since texts tell endpoints apart.
    obtain ⟨b, hb, hbr⟩ := List.mem_filterMap.mp (h.mem_iff.mp hr)
    rw [bne_iff_ne, hf b hb r hbr]
    intro heq
    rw [Endpoint.toString_injective heq, hbr] at hnone
    cases hnone

theorem foldl_put_of (hA : A.Nodup) (hf : Faithful A f) (hg : Faithful A g)
    (h : rs.Perm (A.filterMap f))
    (h' : rs'.Perm ((A.filter fun a => (f a).isNone).filterMap g)) :
    rs'.foldl put (of rs) = of (rs ++ rs') ∧
      (rs ++ rs').Perm (A.filterMap fun a => (f a).or (g a)) := by
  have hperm := (h.append h').trans (perm_filterMap_or A f g)
  refine ⟨foldl_put ?_, hperm⟩
  exact ((hperm.map ServerRecord.address).nodup_iff).mpr ((hf.or hg).nodup hA)

end Table
end ServerDiscovery.Survey
