import ServerDiscovery.Proofs.Record.Codec
import ServerDiscovery.Proofs.Wire.Sequencing

/-! What a reader makes of a record. A record that was written comes back with the names as they are
shown and with its players counted. Whatever bytes a record was read from, it is in normal form, and
a record in normal form comes back as it is. -/

namespace ServerDiscovery.ServerRecord

open Wire

variable {r : ServerRecord} {bs : Bytes} {address : String}

/-- A record comes back, whatever follows it: its players are counted afresh, control characters are
blanks in the names that a game shows, and nothing else is changed. -/
theorem parse_encode_append (h : r.Writable) (hlen : r.players.length ≤ 2147483647)
    (rest : Bytes) (address : String) :
    ∃ clients : Int32, clients.toInt = r.players.length ∧
      parse (r.encode ++ rest) address = .ok { r with
        address
        name := blankControls r.name
        numClients := clients
        players := r.players.map fun p =>
          { p with name := blankControls p.name, clan := blankControls p.clan } } :=
  ⟨r.statedClients, toInt_statedClients hlen, parse_encode h hlen rest address⟩

/-- A server whose texts go beyond one plane, with control characters in all of them and with a
client count of its own. -/
def cabaret : ServerRecord where
  address := "nowhere"
  version := "0.7\r"
  name := "café\t🎭\n"
  hostname := "\x01"
  map := "dm1\x1f"
  gameType := "DM\x7f"
  flags := 255
  skillLevel := 2
  numPlayers := -1
  maxPlayers := 2147483647
  numClients := 99
  maxClients := -2147483648
  players := [⟨"\x1b😀", "中\n", -65, 64, 0⟩, ⟨"", "", 0, -1, 3⟩]

theorem writable_cabaret : cabaret.Writable where
  version := by decide
  name := by decide
  hostname := by decide
  map := by decide
  gameType := by decide
  players := by decide

theorem parse_cabaret : cabaret.Writable ∧ cabaret.players.length ≤ 2147483647 ∧
    ∃ clients : Int32, clients.toInt = 2 ∧
      parse (cabaret.encode ++ [0xff, 0x00]) "10.0.0.1:8303" = .ok { cabaret with
        address := "10.0.0.1:8303"
        name := "café 🎭 "
        numClients := clients
        players := [⟨" 😀", "中 ", -65, 64, 0⟩, ⟨"", "", 0, -1, 3⟩] } := by
  have hlen : cabaret.players.length ≤ 2147483647 := by decide
  exact ⟨writable_cabaret, hlen,
    parse_encode_append writable_cabaret hlen [0xff, 0x00] "10.0.0.1:8303"⟩

structure Normal (r : ServerRecord) : Prop where
  clients : r.numClients.toInt = r.players.length
  writable : r.Writable
  name : Plain r.name
  players : ∀ p ∈ r.players, Plain p.name ∧ Plain p.clan

theorem Normal.length_players_le (h : r.Normal) : r.players.length ≤ 2147483647 := by
  have hmax := r.numClients.toInt_lt
  have hclients := h.clients
  omega

theorem Normal.shown_eq (h : r.Normal) : r.shown = r := by
  have hcount : r.statedClients = r.numClients := by
    apply Int32.toInt_inj.mp
    rw [toInt_statedClients h.length_players_le, h.clients]
  have hplayers : r.players.map PlayerRecord.shown = r.players := by
    refine (List.map_congr_left fun p hp => ?_).trans (List.map_id _)
    obtain ⟨hname, hclan⟩ := h.players p hp
    rw [PlayerRecord.shown, blankControls_of_plain hname, blankControls_of_plain hclan]
    rfl
  rw [shown, normalize, hcount, hplayers, blankControls_of_plain h.name]

theorem yields_readPlayer : Reader.Yields (fun p => Plain p.name ∧ Plain p.clan)
    PlayerRecord.read := by
  unfold PlayerRecord.read
  exact Reader.yields_blankedText.bind fun _ hname =>
    Reader.yields_blankedText.bind fun _ hclan =>
    .bind_any fun _ => .bind_any fun _ => .bind_any fun _ => Reader.yields_pure ⟨hname, hclan⟩

theorem yields_readPlayers (n : Nat) : Reader.Yields
    (fun ps => ps.length = n ∧ ∀ p ∈ ps, Plain p.name ∧ Plain p.clan) (readPlayers n) := by
  induction n with
  | zero => exact Reader.yields_pure ⟨rfl, List.forall_mem_nil _⟩
  | succ n ih =>
    exact yields_readPlayer.bind fun p hp => ih.bind fun ps hps =>
      Reader.yields_pure ⟨congrArg Nat.succ hps.1, List.forall_mem_cons.mpr ⟨hp, hps.2⟩⟩

theorem yields_readHead (address : String) :
    Reader.Yields (fun head => head.Writable ∧ Plain head.name) (readHead address) := by
  unfold readHead
  exact Reader.yields_text.bind fun _ hversion => Reader.yields_blankedText.bind fun _ hname =>
    Reader.yields_text.bind fun _ hhostname => Reader.yields_text.bind fun _ hmap =>
    Reader.yields_text.bind fun _ hgameType => .bind_any fun _ => .bind_any fun _ =>
    .bind_any fun _ => .bind_any fun _ => .bind_any fun _ => .bind_any fun _ =>
    Reader.yields_pure ⟨⟨hversion, hname.terminable, hhostname, hmap, hgameType,
      List.forall_mem_nil _⟩, hname⟩

theorem normal_of_parse (h : parse bs address = .ok r) : r.Normal := by
  obtain ⟨left, hread⟩ := parse_eq_ok_iff.mp h
  obtain ⟨head, rest, players, hhead, hcount, hplayers, rfl⟩ := read_eq_ok_iff.mp hread
  obtain ⟨hwritable, hname⟩ := yields_readHead address _ _ _ hhead
  obtain ⟨hlen, hplain⟩ := yields_readPlayers _ _ _ _ hplayers
  have hclients : head.numClients.toInt = players.length := by
    rw [hlen, Int.toNat_of_nonneg hcount]
  exact {
    clients := hclients
    writable := { hwritable with
      players := fun p hp => ⟨(hplain p hp).1.terminable, (hplain p hp).2.terminable⟩ }
    name := hname
    players := hplain }

/-- Whatever a record was read from, it is in normal form, and reading what it is written as gives
it again. -/
theorem parse_encode_of_parse (h : parse bs address = .ok r) :
    r.Normal ∧ parse r.encode address = .ok r := by
  have hnormal := normal_of_parse h
  have haddress := address_of_parse h
  have hparse := parse_encode hnormal.writable hnormal.length_players_le [] address
  rw [List.append_nil, hnormal.shown_eq, ← haddress] at hparse
  refine ⟨hnormal, ?_⟩
  rw [← haddress]
  exact hparse

def smudge : Bytes :=
  [0x30, 0x00] ++ [0x61, 0x07, 0xe2, 0x82, 0x00] ++ [0x00] ++ [0x6d, 0x0a, 0xed, 0xa0, 0x80, 0x00]
    ++ [0x00] ++ [3, 1] ++ [0x81, 0x00] ++ [8] ++ [0x81, 0x80, 0x80, 0x80, 0x00] ++ [0x10]
    ++ [0xff, 0x00] ++ [0x09, 0x00] ++ [0x40] ++ [0xc1, 0x81, 0x80, 0x80, 0x70] ++ [0x00]
    ++ [0x77, 0x77]

def smudged : ServerRecord where
  address := "10.0.0.1:8303"
  version := "0"
  name := "a \ufffd"
  hostname := ""
  map := "m\n\ufffd\ufffd\ufffd"
  gameType := ""
  flags := 3
  skillLevel := 1
  numPlayers := 1
  maxPlayers := 8
  numClients := 1
  maxClients := 16
  players := [⟨"\ufffd", " ", -1, 2147483582, 0⟩]

theorem parse_smudge : parse smudge "10.0.0.1:8303" = .ok smudged :=
  eq_ok_of_toOption (by decide +kernel)

theorem smudged_again : parse smudge "10.0.0.1:8303" = .ok smudged ∧ smudged.Normal ∧
    parse smudged.encode "10.0.0.1:8303" = .ok smudged :=
  ⟨parse_smudge, parse_encode_of_parse parse_smudge⟩

end ServerDiscovery.ServerRecord
