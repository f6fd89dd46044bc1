import ServerDiscovery.Proofs.Json.Shape
import ServerDiscovery.Record.Json

/-! A record is as good as its JSON: it is read as it was written, whatever is in its texts, and no
two records are written alike. -/

namespace ServerDiscovery

open Json

namespace PlayerRecord

def filled (p : PlayerRecord) : List (Filled Value) :=
  [.text "name" .text p.name, .text "clan" .text p.clan, .int32 "country" .int p.country,
    .int32 "score" .int p.score, .int32 "type" .int p.kind]

theorem nodup_keys (p : PlayerRecord) : (p.filled.map Filled.key).Nodup := by
  show ["name", "clan", "country", "score", "type"].Nodup
  decide

theorem restores_readJson (p : PlayerRecord) : Restores readJson p.writeJson p := by
  intro rest hrest
  have hrecord : record slots (p.writeJson ++ rest) = .ok (p.filled.map Filled.value, rest) :=
    restores_record p.nodup_keys rest hrest
  unfold readJson
  rw [Reading.bind_of_ok hrecord]
  rfl

theorem opens_writeJson (p : PlayerRecord) : Opens p.writeJson :=
  ⟨'\x7b', _, rfl, rfl, by decide⟩

end PlayerRecord

namespace ServerRecord

theorem restores_players (ps : List PlayerRecord) :
    Restores (list PlayerRecord.readJson) (writeList (ps.map PlayerRecord.writeJson)) ps :=
  restores_list (fun p _ => p.opens_writeJson) fun p _ => p.restores_readJson

def hostnameFilled (s : String) : Filled Value where
  slot := ⟨"hostname", .text <$> text, some (.text "")⟩
  value := .text s
  written := if s = "" then none else some (writeText s)
  restored := by
    intro w hw
    split_ifs at hw with hempty
    · cases hw
    · obtain rfl := Option.some.inj hw
      exact (restores_text s).map _
  defaulted := by
    intro hw
    split_ifs at hw with hempty
    rw [hempty]

def filled (r : ServerRecord) : List (Filled Value) :=
  [.text "address" .text r.address, .text "version" .text r.version, .text "name" .text r.name,
    hostnameFilled r.hostname, .text "map" .text r.map, .text "gametype" .text r.gameType,
    .uint8 "server_flags" .byte r.flags, .uint8 "skill_level" .byte r.skillLevel,
    .int32 "num_players" .int r.numPlayers, .int32 "max_players" .int r.maxPlayers,
    .int32 "num_clients" .int r.numClients, .int32 "max_clients" .int r.maxClients,
    .stated ⟨"players", Value.players <$> list PlayerRecord.readJson, none⟩
      ((restores_players r.players).map Value.players)]

theorem nodup_keys (r : ServerRecord) : (r.filled.map Filled.key).Nodup := by
  show ["address", "version", "name", "hostname", "map", "gametype", "server_flags", "skill_level",
    "num_players", "max_players", "num_clients", "max_clients", "players"].Nodup
  decide

theorem member?_hostnameFilled (s : String) :
    (hostnameFilled s).member? = if s = "" then none else some ("hostname", writeText s) := by
  unfold Filled.member? hostnameFilled
  dsimp only
  split_ifs <;> rfl

theorem writeJson_eq (r : ServerRecord) :
    r.writeJson = writeObject (r.filled.filterMap Filled.member?) := by
  have hfilled : r.filled = r.filled.take 3 ++ hostnameFilled r.hostname :: r.filled.drop 4 := rfl
  have hmember := member?_hostnameFilled r.hostname
  unfold writeJson
  rw [hfilled, List.filterMap_append]
  by_cases hempty : r.hostname = ""
  · rw [if_pos hempty] at hmember
    rw [List.filterMap_cons_none hmember, if_pos (String.isEmpty_iff.mpr hempty)]
    rfl
  · rw [if_neg hempty] at hmember
    rw [List.filterMap_cons_some hmember, if_neg (mt String.isEmpty_iff.mp hempty)]
    rfl

theorem restores_readJson (r : ServerRecord) : Restores readJson r.writeJson r := by
  intro rest hrest
  have hrecord : record slots (r.writeJson ++ rest) = .ok (r.filled.map Filled.value, rest) := by
    rw [writeJson_eq]
    exact restores_record r.nodup_keys rest hrest
  unfold readJson
  rw [Reading.bind_of_ok hrecord]
  rfl

theorem ofJson_toJson (r : ServerRecord) : ofJson r.toJson = .ok r :=
  document_of_restores r.restores_readJson

theorem toJson_inj {r s : ServerRecord} : r.toJson = s.toJson ↔ r = s := by
  refine ⟨fun h => ?_, congrArg toJson⟩
  have hread := congrArg ofJson h
  rw [ofJson_toJson, ofJson_toJson] at hread
  exact Except.ok.inj hread

theorem members_writeJson (r : ServerRecord) :
    ∃ found, members slots r.writeJson.length true [] r.writeJson.tail = .ok (found, []) ∧
      found.lookup "hostname" = if r.hostname = "" then none else some (.text r.hostname) := by
  have hwritten : r.writeJson = '\x7b' :: objectRest r.filled [] := by
    rw [writeJson_eq, ← writeObject_append, List.append_nil]
  have hhostname : hostnameFilled r.hostname ∈ r.filled := by simp [filled]
  refine ⟨(r.filled.filterMap Filled.found?).reverse, ?_, ?_⟩
  · rw [hwritten]
    exact members_written r.nodup_keys []
  · refine (lookup_found r.nodup_keys hhostname).trans ?_
    unfold hostnameFilled
    dsimp only
    split_ifs <;> rfl

/-- Every record is read back from its JSON, which is its own, and which leaves out the host name
exactly when it is empty. -/
theorem json_faithful :
    (∀ r : ServerRecord, ofJson r.toJson = .ok r) ∧
    (∀ r s : ServerRecord, r.toJson = s.toJson ↔ r = s) ∧
    ∀ r : ServerRecord, ∃ found,
      members slots r.writeJson.length true [] r.writeJson.tail = .ok (found, []) ∧
      found.lookup "hostname" = if r.hostname = "" then none else some (.text r.hostname) :=
  ⟨ofJson_toJson, fun _ _ => toJson_inj, members_writeJson⟩

end ServerRecord
end ServerDiscovery
