import Mathlib.Data.List.Nodup

/-! Lists of entries that are found by their keys: what a lookup finds once entries are taken out by
key or by value. -/

namespace ServerDiscovery.Keyed

variable {α β : Type*} [DecidableEq α] {entries : List (α × β)} {k : α} {v : β} {p : β → Bool}

theorem lookup_of_mem {entry : α × β} (hkeys : (entries.map Prod.fst).Nodup)
    (hmem : entry ∈ entries) : entries.lookup entry.1 = some entry.2 := by
  obtain ⟨before, after, rfl⟩ := List.append_of_mem hmem
  refine List.lookup_eq_some_iff.mpr ⟨before, after, rfl, fun p hp => ?_⟩
  rw [List.map_append, List.map_cons] at hkeys
  have hne := (List.nodup_middle.mp hkeys).notMem
  refine bne_iff_ne.mpr fun heq => hne (List.mem_append_left _ ?_)
  rw [heq]
  exact List.mem_map_of_mem hp

theorem mem_of_lookup (h : entries.lookup k = some v) : (k, v) ∈ entries := by
  obtain ⟨before, after, rfl, -⟩ := List.lookup_eq_some_iff.mp h
  exact List.mem_append_right before (List.mem_cons_self ..)

theorem mem_keys_iff : k ∈ entries.map Prod.fst ↔ (entries.lookup k).isSome = true := by
  constructor
  · intro h
    obtain ⟨entry, hentry, rfl⟩ := List.mem_map.mp h
    cases hlookup : entries.lookup entry.1 with
    | some v => rfl
    | none => exact absurd (List.lookup_eq_none_iff.mp hlookup entry hentry) (by simp)
  · intro h
    obtain ⟨v, hv⟩ := Option.isSome_iff_exists.mp h
    exact List.mem_map_of_mem (mem_of_lookup hv)

theorem lookup_without (entries : List (α × β)) (k k' : α) :
    (entries.filter fun entry => entry.1 ≠ k).lookup k'
      = if k' = k then none else entries.lookup k' := by
  induction entries with
  | nil => simp
  | cons entry rest ih =>
    obtain ⟨key, v⟩ := entry
    by_cases hkey : key = k
    · subst hkey
      simp only [List.filter_cons, ne_eq, not_true_eq_false, decide_false, Bool.false_eq_true,
        if_false] at ih ⊢
      rw [ih]
      split_ifs with hk
      · rfl
      · rw [List.lookup_cons, beq_eq_false_iff_ne.mpr hk]
    · simp only [List.filter_cons, ne_eq, hkey, not_false_eq_true, decide_true, if_true,
        List.lookup_cons] at ih ⊢
      rw [ih]
      by_cases hk : k' = key
      · subst hk
        simp only [beq_self_eq_true, if_neg hkey]
      · rw [beq_eq_false_iff_ne.mpr hk]

theorem lookup_keep_of_pos (h : entries.lookup k = some v) (hv : p v = true) :
    (entries.filter fun entry => p entry.2).lookup k = some v := by
  obtain ⟨before, after, rfl, hbefore⟩ := List.lookup_eq_some_iff.mp h
  refine List.lookup_eq_some_iff.mpr ⟨before.filter fun entry => p entry.2,
    after.filter fun entry => p entry.2, ?_, fun entry hentry => ?_⟩
  · simp [hv]
  · exact hbefore entry (List.mem_of_mem_filter hentry)

/-- With two entries of one key the second could come to light. -/
theorem lookup_keep (hkeys : (entries.map Prod.fst).Nodup) (k : α) (p : β → Bool) :
    (entries.filter fun entry => p entry.2).lookup k = (entries.lookup k).filter p := by
  cases h : (entries.lookup k).filter p with
  | some v =>
    obtain ⟨hv, hp⟩ := Option.filter_eq_some_iff.mp h
    exact lookup_keep_of_pos hv hp
  | none =>
    rw [Option.eq_none_iff_forall_ne_some]
    intro v hv
    have hkept := List.mem_filter.mp (mem_of_lookup hv)
    have hfound := lookup_of_mem hkeys hkept.1
    rw [hfound, Option.filter_some_pos hkept.2] at h
    cases h

omit [DecidableEq α] in
theorem nodup_filter (hkeys : (entries.map Prod.fst).Nodup) (p : α × β → Bool) :
    ((entries.filter p).map Prod.fst).Nodup :=
  hkeys.sublist (List.filter_sublist.map Prod.fst)

theorem notMem_without (entries : List (α × β)) (k : α) :
    k ∉ (entries.filter fun entry => entry.1 ≠ k).map Prod.fst := by
  intro h
  obtain ⟨entry, hentry, rfl⟩ := List.mem_map.mp h
  simp at hentry

theorem nodup_put (hkeys : (entries.map Prod.fst).Nodup) (k : α) (v : β) :
    (((k, v) :: entries.filter fun entry => entry.1 ≠ k).map Prod.fst).Nodup :=
  List.nodup_cons.mpr ⟨notMem_without entries k, nodup_filter hkeys _⟩

theorem length_without (hkeys : (entries.map Prod.fst).Nodup) (h : entries.lookup k = some v) :
    (entries.filter fun entry => entry.1 ≠ k).length + 1 = entries.length := by
  obtain ⟨before, after, rfl, -⟩ := List.lookup_eq_some_iff.mp h
  rw [List.map_append, List.map_cons] at hkeys
  have hne : k ∉ (before ++ after).map Prod.fst := by
    rw [List.map_append]
    exact (List.nodup_middle.mp hkeys).notMem
  have hkeep : ∀ entry ∈ before ++ after, entry.1 ≠ k := by
    rintro entry hentry rfl
    exact hne (List.mem_map_of_mem hentry)
  have hbefore := List.filter_eq_self.mpr fun entry h =>
    decide_eq_true (hkeep entry (List.mem_append_left after h))
  have hafter := List.filter_eq_self.mpr fun entry h =>
    decide_eq_true (hkeep entry (List.mem_append_right before h))
  rw [List.filter_append, hbefore, List.filter_cons_of_neg (by simp), hafter]
  simp only [List.length_append, List.length_cons, Nat.add_assoc]

end ServerDiscovery.Keyed
