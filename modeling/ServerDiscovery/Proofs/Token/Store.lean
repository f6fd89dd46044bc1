import ServerDiscovery.Proofs.Keyed
import ServerDiscovery.Token.Store

/-! What the operations of a token store do to the token of one endpoint. Whatever entries the agenda
holds, stale or not, a sweep takes out nothing that is still good. -/

namespace ServerDiscovery.Token

@[simp] theorem issued_client (client server : Int32) (x : Time) :
    (issued client server x).client = client := rfl
@[simp] theorem issued_server (client server : Int32) (x : Time) :
    (issued client server x).server = server := rfl
@[simp] theorem expires?_issued (client server : Int32) (x : Time) :
    (issued client server x).expires? = some x := rfl

namespace Store

variable {s : Store} {e : Endpoint} {t : Token} {now x : Time}

theorem lookup_removeKey (tokens : List (Endpoint × Token)) (e e' : Endpoint) :
    (removeKey tokens e).lookup e' = if e' = e then none else tokens.lookup e' :=
  Keyed.lookup_without tokens e e'

theorem lookup_sweepAgenda (now : Time) (tokens : List (Endpoint × Token))
    (agenda : List (Time × Endpoint)) (h : (sweepAgenda now tokens agenda).1.lookup e = some t) :
    tokens.lookup e = some t := by
  induction agenda generalizing tokens with
  | nil => exact h
  | cons entry agenda ih =>
    obtain ⟨due, k⟩ := entry
    simp only [sweepAgenda] at h
    split_ifs at h
    · exact h
    · have hk := ih _ h
      rw [lookup_removeKey] at hk
      split_ifs at hk with he
      exact hk
    · exact ih _ h

theorem lookup_sweepAgenda_of_lt (now : Time) (tokens : List (Endpoint × Token))
    (agenda : List (Time × Endpoint)) (h : tokens.lookup e = some t) (hx : t.expires? = some x)
    (hlt : now < x) : (sweepAgenda now tokens agenda).1.lookup e = some t := by
  induction agenda generalizing tokens with
  | nil => exact h
  | cons entry agenda ih =>
    obtain ⟨due, k⟩ := entry
    simp only [sweepAgenda]
    split_ifs with hdue hany
    · exact h
    · apply ih _
      rw [lookup_removeKey, if_neg, h]
      rintro rfl
      simp only [h, Option.bind_some, hx, Option.any_some, decide_eq_true_eq] at hany
      exact absurd hlt (Nat.not_lt.mpr hany)
    · exact ih _ h

theorem token?_sweep (h : (s.sweep now).2.token? e = some t) : s.token? e = some t :=
  lookup_sweepAgenda now s.tokens s.agenda h

theorem token?_sweep_of_lt (h : s.token? e = some t) (hx : t.expires? = some x) (hlt : now < x) :
    (s.sweep now).2.token? e = some t :=
  lookup_sweepAgenda_of_lt now s.tokens s.agenda h hx hlt

theorem token?_insert_self (hx : t.expires? = some x) (hlt : now < x) :
    (s.insert e t now).token? e = some t := by
  simp [insert, hx, Nat.not_le.mpr hlt, token?]

theorem token?_insert_of_ne {e' : Endpoint} (h : e' ≠ e) :
    (s.insert e t now).token? e' = (s.sweep now).2.token? e' := by
  simp only [insert]
  split
  · rfl
  · split_ifs
    · rfl
    · simp only [token?, List.lookup_cons, beq_eq_false_iff_ne.mpr h, lookup_removeKey, if_neg h]

theorem token?_insert {e' : Endpoint} {t' : Token} (h : (s.insert e t now).token? e' = some t') :
    (e' = e ∧ t' = t) ∨ s.token? e' = some t' := by
  by_cases he : e' = e
  · subst he
    cases hx : t.expires? with
    | none => exact .inr (token?_sweep (by simpa [insert, hx] using h))
    | some x =>
      rcases Nat.lt_or_ge now x with hlt | hle
      · rw [token?_insert_self hx hlt, Option.some.injEq] at h
        exact .inl ⟨rfl, h.symm⟩
      · exact .inr (token?_sweep (by simpa [insert, hx, hle] using h))
  · rw [token?_insert_of_ne he] at h
    exact .inr (token?_sweep h)

end Store
end ServerDiscovery.Token
