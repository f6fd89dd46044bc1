import Mathlib.Data.List.Basic
import Mathlib.Data.List.Perm.Subperm
import ServerDiscovery.Address.Endpoint
import ServerDiscovery.Proofs.Address.Text

/-! The text of an endpoint is as good as the endpoint: it is read as it was printed, and no two
endpoints have one text. -/

namespace ServerDiscovery.Endpoint

variable {a b : Endpoint}

theorem ofSocket_toSocket (e : Endpoint) : ofSocket e.toSocket = e := by
  obtain ⟨ip, port, canonical⟩ := e
  cases ip with
  | v4 ip => rfl
  | v6 ip => exact Endpoint.ext canonical rfl

theorem flow_toSocket (e : Endpoint) : e.toSocket.flow = 0 := by
  obtain ⟨ip, port, canonical⟩ := e
  cases ip <;> rfl

theorem ofString?_eq_some_iff {t : String} {e : Endpoint} :
    ofString? t = some e ↔ ∃ a : SocketAddress, a.Spelling t.toList ∧ ofSocket a = e := by
  unfold ofString?
  rw [Option.map_eq_map, Option.map_eq_some_iff]
  simp only [SocketAddress.ofString?_eq_some_iff]

theorem ofString?_toString (e : Endpoint) : ofString? e.toString = some e := by
  unfold ofString? toString
  rw [SocketAddress.ofString?_toString e.flow_toSocket, Option.map_eq_map, Option.map_some,
    ofSocket_toSocket]

theorem toString_injective (h : a.toString = b.toString) : a = b := by
  have hread := congrArg ofString? h
  rw [ofString?_toString, ofString?_toString] at hread
  exact Option.some.inj hread

theorem nodup_distinct (es : List Endpoint) : (distinct es).Nodup := by
  unfold distinct
  induction hn : es.length using Nat.strongRecOn generalizing es with
  | ind n ih =>
    cases es with
    | nil => exact List.nodup_nil
    | cons e es =>
      have hlen : (es.filter fun b => !b == e).length < n :=
        hn ▸ Nat.lt_succ_of_le (List.length_filter_le ..)
      rw [List.eraseDups_cons]
      refine List.nodup_cons.mpr ⟨fun hmem => ?_, ih _ hlen _ rfl⟩
      simp [List.mem_eraseDups] at hmem

theorem length_distinct_le (es : List Endpoint) : (distinct es).length ≤ es.length := by
  have hsub : distinct es ⊆ es := fun _ h => List.mem_eraseDups.mp h
  exact (List.subperm_of_subset (nodup_distinct es) hsub).length_le

theorem distinct_eq_self {es : List Endpoint} (h : es.Nodup) : distinct es = es := by
  unfold distinct
  induction es with
  | nil => rfl
  | cons e es ih =>
    obtain ⟨hnot, hrest⟩ := List.nodup_cons.mp h
    have hkept : es.filter (fun b => !b == e) = es := by
      apply List.filter_eq_self.mpr
      intro b hb
      simpa using fun heq : b = e => hnot (heq ▸ hb)
    rw [List.eraseDups_cons, hkept, ih hrest]

end ServerDiscovery.Endpoint
