/-! A reader is a state passed on by a program that may fail: it takes what it recognises off the
front. What comes after it in a sequence sees the state that it leaves, unless it fails. -/

namespace ServerDiscovery.Reading

variable {σ ε α β : Type} {s s' : σ} {r : StateT σ (Except ε) α} {fault : ε} {a : α} {b : β}

theorem bind_of_ok (h : r s = .ok (a, s')) (f : α → StateT σ (Except ε) β) :
    (r >>= f) s = f a s' := by
  show (r s).bind _ = _
  rw [h]
  rfl

theorem bind_of_error (h : r s = .error fault) (f : α → StateT σ (Except ε) β) :
    (r >>= f) s = .error fault := by
  show (r s).bind _ = _
  rw [h]
  rfl

theorem bind_eq_ok_iff {f : α → StateT σ (Except ε) β} :
    (r >>= f) s = .ok (b, s') ↔ ∃ a mid, r s = .ok (a, mid) ∧ f a mid = .ok (b, s') := by
  constructor
  · intro h
    cases hr : r s with
    | error fault =>
      rw [bind_of_error hr] at h
      cases h
    | ok p =>
      rw [bind_of_ok hr] at h
      exact ⟨p.1, p.2, rfl, h⟩
  · rintro ⟨a, mid, hr, hf⟩
    rw [bind_of_ok hr]
    exact hf

theorem map_apply (g : α → β) (r : StateT σ (Except ε) α) (s : σ) :
    (g <$> r) s = (r s).map fun (a, s') => (g a, s') := by
  show (r s).bind _ = _
  cases r s <;> rfl

theorem map_of_ok (h : r s = .ok (a, s')) (f : α → β) : (f <$> r) s = .ok (f a, s') := by
  show (r s).bind _ = _
  rw [h]
  rfl

theorem map_eq_ok_iff {g : α → β} :
    (g <$> r) s = .ok (b, s') ↔ ∃ a, r s = .ok (a, s') ∧ g a = b := by
  refine (bind_eq_ok_iff (f := fun a => pure (g a))).trans ⟨?_, ?_⟩
  · rintro ⟨a, mid, hr, hpure⟩
    obtain ⟨rfl, rfl⟩ := Prod.mk.inj (Except.ok.inj hpure)
    exact ⟨a, hr, rfl⟩
  · rintro ⟨a, hr, rfl⟩
    exact ⟨a, s', hr, rfl⟩

end ServerDiscovery.Reading
