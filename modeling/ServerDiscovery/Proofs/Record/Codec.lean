import ServerDiscovery.Proofs.Wire.Blanking
import ServerDiscovery.Record.Codec

/-! What a reader of records does with the address it is given: it puts it into the record, and no
byte depends on it. All else is read as it was written, but for the blanks in names that a game
shows, and for the client count, which is the number of the players. -/

namespace ServerDiscovery.ServerRecord

open Wire

variable {address : String} {bs : Bytes} {r : ServerRecord}

theorem readHead_eq (address : String) :
    readHead address = (fun r => { r with address }) <$> readHead "" := by
  simp [readHead]

theorem read_eq (address : String) : read address = (fun r => { r with address }) <$> read "" := by
  simp only [read, readHead_eq address, bind_map_left, map_bind]
  congr 1
  funext head
  split
  · rfl
  · simp

theorem parse_eq (bs : Bytes) (address : String) :
    parse bs address = (fun r => { r with address }) <$> parse bs "" := by
  simp only [parse, read_eq address]
  show _ <$> ((fun p : ServerRecord × Bytes => _) <$> read "" bs) = _
  simp

theorem parse_eq_ok_iff :
    parse bs address = .ok r ↔ ∃ rest, read address bs = .ok (r, rest) := by
  unfold parse
  cases read address bs with
  | error fault => simp [Functor.map, Except.map]
  | ok p => simp [Functor.map, Except.map, Prod.ext_iff]

theorem parse_eq_error_iff {fault : Fault} :
    parse bs address = .error fault ↔ read address bs = .error fault := by
  unfold parse
  cases read address bs <;> simp [Functor.map, Except.map]

theorem address_of_parse (h : parse bs address = .ok r) : r.address = address := by
  rw [parse_eq] at h
  cases hp : parse bs "" with
  | error e => simp [hp, Functor.map, Except.map] at h
  | ok r' =>
    simp only [hp, Functor.map, Except.map, Except.ok.injEq] at h
    exact h ▸ rfl

end ServerDiscovery.ServerRecord

namespace ServerDiscovery

open Wire

def PlayerRecord.shown (p : PlayerRecord) : PlayerRecord :=
  { p with name := blankControls p.name, clan := blankControls p.clan }

/-- A record as a reader sees it. -/
def ServerRecord.shown (r : ServerRecord) : ServerRecord :=
  { r.normalize with name := blankControls r.name, players := r.players.map PlayerRecord.shown }

/-- No text of a record has a terminator in it. -/
structure ServerRecord.Writable (r : ServerRecord) : Prop where
  version : Terminable r.version
  name : Terminable r.name
  hostname : Terminable r.hostname
  map : Terminable r.map
  gameType : Terminable r.gameType
  players : ∀ p ∈ r.players, Terminable p.name ∧ Terminable p.clan

theorem encodeFields_cons (f : Field) (fs : List Field) (rest : Bytes) :
    encodeFields (f :: fs) ++ rest = f.encode ++ (encodeFields fs ++ rest) := by
  unfold encodeFields
  rw [List.flatMap_cons, List.append_assoc]

theorem encodeFields_append (fs fs' : List Field) :
    encodeFields (fs ++ fs') = encodeFields fs ++ encodeFields fs' :=
  List.flatMap_append

namespace PlayerRecord

theorem read_encode {p : PlayerRecord} (hname : Terminable p.name) (hclan : Terminable p.clan)
    (rest : Bytes) : read (encodeFields p.fields ++ rest) = .ok (p.shown, rest) := by
  unfold read fields
  simp only [encodeFields_cons]
  rw [Reading.bind_of_ok (Reader.blankedText_encode hname _),
    Reading.bind_of_ok (Reader.blankedText_encode hclan _),
    Reading.bind_of_ok (Reader.int_encode ..), Reading.bind_of_ok (Reader.int_encode ..),
    Reading.bind_of_ok (Reader.int_encode ..)]
  rfl

theorem length_encode_pos (p : PlayerRecord) : 0 < (encodeFields p.fields).length := by
  unfold fields encodeFields
  rw [List.flatMap_cons, List.length_append]
  simp only [Field.encode, List.length_append, List.length_singleton]
  omega

end PlayerRecord

namespace ServerRecord

variable {r : ServerRecord}

theorem readPlayers_encode {ps : List PlayerRecord}
    (h : ∀ p ∈ ps, Terminable p.name ∧ Terminable p.clan) (rest : Bytes) :
    readPlayers ps.length (encodeFields (ps.flatMap PlayerRecord.fields) ++ rest)
      = .ok (ps.map PlayerRecord.shown, rest) := by
  induction ps with
  | nil => rfl
  | cons p ps ih =>
    obtain ⟨hp, hps⟩ := List.forall_mem_cons.mp h
    rw [List.flatMap_cons, encodeFields_append, List.append_assoc, List.length_cons, readPlayers,
      Reading.bind_of_ok (PlayerRecord.read_encode hp.1 hp.2 _), Reading.bind_of_ok (ih hps)]
    rfl

theorem readHead_encode (h : r.Writable) (address : String) (rest : Bytes) :
    readHead address (encodeFields r.headFields ++ rest)
      = .ok ({ r.shown with address, players := [] }, rest) := by
  unfold readHead headFields
  simp only [encodeFields_cons]
  rw [Reading.bind_of_ok (Reader.text_encode h.version _),
    Reading.bind_of_ok (Reader.blankedText_encode h.name _),
    Reading.bind_of_ok (Reader.text_encode h.hostname _),
    Reading.bind_of_ok (Reader.text_encode h.map _),
    Reading.bind_of_ok (Reader.text_encode h.gameType _),
    Reading.bind_of_ok (Reader.byte_encode ..), Reading.bind_of_ok (Reader.byte_encode ..),
    Reading.bind_of_ok (Reader.int_encode ..), Reading.bind_of_ok (Reader.int_encode ..),
    Reading.bind_of_ok (Reader.int_encode ..), Reading.bind_of_ok (Reader.int_encode ..)]
  rfl

theorem toInt_statedClients (hlen : r.players.length ≤ 2147483647) :
    r.statedClients.toInt = r.players.length := by
  unfold statedClients
  rw [Nat.min_eq_left hlen, Int32.toInt_ofNat_of_lt (by omega)]

theorem read_eq_bind (address : String) : read address = readHead address >>= fun head =>
    if head.numClients < 0 then throw (.malformed .negativePlayerCount)
    else (fun players => { head with players }) <$>
      readPlayers head.numClients.toInt.toNat := by
  unfold read
  rfl

theorem read_eq_ok_iff {address : String} {bs left : Bytes} : read address bs = .ok (r, left) ↔
    ∃ head rest players, readHead address bs = .ok (head, rest) ∧ 0 ≤ head.numClients.toInt ∧
      readPlayers head.numClients.toInt.toNat rest = .ok (players, left) ∧
      r = { head with players } := by
  have hsign : ∀ v : Int32, v < 0 ↔ ¬ 0 ≤ v.toInt := fun v => by
    rw [Int32.lt_iff_toInt_lt, Int32.toInt_zero, Int.not_le]
  rw [read_eq_bind, Reading.bind_eq_ok_iff]
  constructor
  · rintro ⟨head, rest, hhead, h⟩
    split_ifs at h with hneg
    · cases h
    · obtain ⟨players, hplayers, rfl⟩ := Reading.map_eq_ok_iff.mp h
      exact ⟨head, rest, players, hhead, not_not.mp (mt (hsign _).mpr hneg), hplayers, rfl⟩
  · rintro ⟨head, rest, players, hhead, hcount, hplayers, rfl⟩
    refine ⟨head, rest, hhead, ?_⟩
    rw [if_neg (mt (hsign _).mp (not_not.mpr hcount))]
    exact Reading.map_of_ok hplayers _

theorem read_encode (h : r.Writable) (hlen : r.players.length ≤ 2147483647) (rest : Bytes)
    (address : String) :
    read address (r.encode ++ rest) = .ok ({ r.shown with address }, rest) := by
  have hhead := readHead_encode h address
    (encodeFields (r.players.flatMap PlayerRecord.fields) ++ rest)
  have hcount : r.statedClients.toInt = r.players.length := toInt_statedClients hlen
  have hplayers := readPlayers_encode h.players rest
  unfold encode fields
  -- The players follow their count, whatever else follows them.
  rw [encodeFields_append, List.append_assoc]
  refine read_eq_ok_iff.mpr ⟨_, _, _, hhead, ?_, ?_, rfl⟩
  · show 0 ≤ r.statedClients.toInt
    omega
  · show readPlayers r.statedClients.toInt.toNat _ = _
    rw [hcount, Int.toNat_natCast]
    exact hplayers

theorem parse_encode (h : r.Writable) (hlen : r.players.length ≤ 2147483647) (rest : Bytes)
    (address : String) : parse (r.encode ++ rest) address = .ok { r.shown with address } :=
  parse_eq_ok_iff.mpr ⟨rest, read_encode h hlen rest address⟩

theorem length_players_le (r : ServerRecord) : r.players.length ≤ r.encode.length := by
  have hplayers : ∀ ps : List PlayerRecord,
      ps.length ≤ (encodeFields (ps.flatMap PlayerRecord.fields)).length := by
    intro ps
    induction ps with
    | nil => exact Nat.zero_le _
    | cons p ps ih =>
      have hp := p.length_encode_pos
      rw [List.flatMap_cons, encodeFields_append, List.length_append, List.length_cons]
      omega
  unfold encode fields
  rw [encodeFields_append, List.length_append]
  exact Nat.le_trans (hplayers r.players) (Nat.le_add_left ..)

end ServerRecord
end ServerDiscovery
