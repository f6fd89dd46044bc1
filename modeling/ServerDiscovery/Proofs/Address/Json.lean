import ServerDiscovery.Address.Json
import ServerDiscovery.Proofs.Address.Endpoint
import ServerDiscovery.Proofs.Json.Reader

/-! Whatever spelling an endpoint is read from, its text stands for it, and so does its JSON. -/

namespace ServerDiscovery.Endpoint

open Json

variable {e : Endpoint} {t : String}

theorem restores_readJson (h : ofString? t = some e) : Restores readJson (writeText t) e := by
  intro rest _
  unfold readJson
  rw [Reading.bind_of_ok (text_written t rest), h]
  rfl

theorem ofJson_writeText (h : ofString? t = some e) :
    ofJson (String.ofList (writeText t)) = .ok e :=
  document_of_restores (restores_readJson h)

theorem ofJson_toJson (e : Endpoint) : ofJson e.toJson = .ok e :=
  ofJson_writeText e.ofString?_toString

/-- The text of an endpoint stands for it, and so does its JSON. It is read from the spellings of
its socket addresses and from nothing else, and what is printed of it then is read the same. -/
theorem text_faithful :
    (∀ e : Endpoint, ofString? e.toString = some e) ∧
    (∀ a b : Endpoint, a.toString = b.toString ↔ a = b) ∧
    (∀ e : Endpoint, ofJson e.toJson = .ok e) ∧
    (∀ (t : String) (e : Endpoint),
      ofString? t = some e ↔ ∃ a : SocketAddress, a.Spelling t.toList ∧ ofSocket a = e) ∧
    ∀ (t : String) (e : Endpoint), ofString? t = some e →
      ofString? e.toString = some e ∧ ofJson (String.ofList (writeText t)) = .ok e :=
  ⟨ofString?_toString, fun _ _ => ⟨toString_injective, congrArg toString⟩, ofJson_toJson,
    fun _ _ => ofString?_eq_some_iff, fun _ e h => ⟨ofString?_toString e, ofJson_writeText h⟩⟩

theorem text_faithful_mapped :
    ofString? "[0:0:00:000:0:FFFF:0A00:1%3]:08303" = some (ofIp (.v4 ⟨10, 0, 0, 1⟩) 8303) ∧
    ofString? (ofIp (.v4 ⟨10, 0, 0, 1⟩) 8303).toString = some (ofIp (.v4 ⟨10, 0, 0, 1⟩) 8303) ∧
    ofJson (String.ofList (writeText "[0:0:00:000:0:FFFF:0A00:1%3]:08303"))
      = .ok (ofIp (.v4 ⟨10, 0, 0, 1⟩) 8303) := by
  have hread : ofString? "[0:0:00:000:0:FFFF:0A00:1%3]:08303"
      = some (ofIp (.v4 ⟨10, 0, 0, 1⟩) 8303) := by decide +kernel
  exact ⟨hread, text_faithful.2.2.2.2 _ _ hread⟩

end ServerDiscovery.Endpoint
