import ServerDiscovery.Proofs.Record.Normal

/-! Where a record ends. The fields say it themselves, and the client count says it of the players:
a record that is cut anywhere is refused, and what stands behind it is not looked at. -/

namespace ServerDiscovery

open Wire

theorem PlayerRecord.delimits_read : Reader.Delimits 5 PlayerRecord.read := by
  unfold PlayerRecord.read
  exact (Reader.delimits_blankedText []).bind fun _ =>
    (Reader.delimits_blankedText []).bind fun _ => Reader.delimits_int.bind fun _ =>
    Reader.delimits_int.bind fun _ => Reader.delimits_int.bind fun _ => Reader.delimits_pure _

namespace ServerRecord

variable {r : ServerRecord} {bs piece : Bytes} {address : String} {n k : Nat}

theorem delimits_readPlayers (n : Nat) : Reader.Delimits (5 * n) (readPlayers n) := by
  induction n with
  | zero => exact Reader.delimits_pure []
  | succ n ih =>
    rw [Nat.mul_succ, Nat.add_comm]
    exact PlayerRecord.delimits_read.bind fun p => ih.bind fun ps => Reader.delimits_pure (p :: ps)

theorem delimits_readHead (address : String) : Reader.Delimits 11 (readHead address) := by
  unfold readHead
  exact Reader.delimits_text.bind fun _ => (Reader.delimits_blankedText []).bind fun _ =>
    Reader.delimits_text.bind fun _ => Reader.delimits_text.bind fun _ =>
    Reader.delimits_text.bind fun _ => Reader.delimits_byte.bind fun _ =>
    Reader.delimits_byte.bind fun _ => Reader.delimits_int.bind fun _ =>
    Reader.delimits_int.bind fun _ => Reader.delimits_int.bind fun _ =>
    Reader.delimits_int.bind fun _ => Reader.delimits_pure _

theorem delimits_read (address : String) : Reader.Delimits 11 (read address) := by
  rw [read_eq_bind]
  refine (delimits_readHead address).bind (n := 0) fun head => ?_
  split_ifs
  · exact Reader.delimits_throw _
  · exact ((delimits_readPlayers _).map _).mono (Nat.zero_le _)

/-- The first `n` bytes are what the record is read from: with fewer of them it is refused, and
whatever follows them it is the same. -/
structure Spans (bs : Bytes) (address : String) (r : ServerRecord) (n : Nat) : Prop where
  le_length : n ≤ bs.length
  cut : ∀ k < n, ∃ fault, parse (bs.take k) address = .error fault
  whole : ∀ rest, parse (bs.take n ++ rest) address = .ok r

theorem Spans.le (h : Spans bs address r n) (h' : Spans bs address r k) : n ≤ k := by
  by_contra hlt
  obtain ⟨fault, herror⟩ := h.cut k (Nat.lt_of_not_le hlt)
  have hok := h'.whole []
  rw [List.append_nil, herror] at hok
  cases hok

theorem Spans.unique (h : Spans bs address r n) (h' : Spans bs address r k) : n = k :=
  Nat.le_antisymm (h.le h') (h'.le h)

theorem spans_of_takes (h : (read address).Takes piece r) (rest : Bytes) :
    Spans (piece ++ rest) address r piece.length where
  le_length := by
    rw [List.length_append]
    exact Nat.le_add_right _ _
  cut k hk := by
    obtain ⟨fault, herror⟩ := h.cut k hk
    rw [List.take_append_of_le_length (Nat.le_of_lt hk)]
    exact ⟨fault, parse_eq_error_iff.mpr herror⟩
  whole rest' := by
    rw [List.take_left]
    exact parse_eq_ok_iff.mpr ⟨rest', h.whole rest'⟩

theorem exists_spans (h : parse bs address = .ok r) : ∃ n, Spans bs address r n := by
  obtain ⟨rest, hread⟩ := parse_eq_ok_iff.mp h
  obtain ⟨piece, rfl, -, htakes⟩ := delimits_read address bs r rest hread
  exact ⟨piece.length, spans_of_takes htakes rest⟩

/-- The record with as many of its players as it can state the number of. -/
def counted (r : ServerRecord) : ServerRecord :=
  { r with players := r.players.take 2147483647 }

theorem encode_eq_counted (r : ServerRecord) : r.encode = r.counted.encode ++
    encodeFields ((r.players.drop 2147483647).flatMap PlayerRecord.fields) := by
  have hstated : r.counted.statedClients = r.statedClients := by
    unfold statedClients counted
    rw [List.length_take, Nat.min_comm 2147483647, Nat.min_assoc, Nat.min_self]
  have hhead : r.counted.headFields = r.headFields := by
    rw [headFields, hstated]
    rfl
  have hplayers : r.players.flatMap PlayerRecord.fields =
      r.counted.players.flatMap PlayerRecord.fields ++
        (r.players.drop 2147483647).flatMap PlayerRecord.fields := by
    rw [← List.flatMap_append]
    exact congrArg _ (List.take_append_drop _ _).symm
  unfold encode fields
  rw [hhead, hplayers, ← List.append_assoc, encodeFields_append]

theorem Writable.counted (h : r.Writable) : r.counted.Writable :=
  { h with players := fun p hp => h.players p (List.mem_of_mem_take hp) }

theorem takes_encode (h : r.Writable) (hlen : r.players.length ≤ 2147483647) (address : String) :
    (read address).Takes r.encode { r.shown with address } := by
  obtain ⟨piece, heq, -, htakes⟩ := delimits_read address _ _ _ (read_encode h hlen [] address)
  obtain rfl : r.encode = piece := List.append_cancel_right heq
  exact htakes

theorem spans_encode (h : r.Writable) (address : String) :
    Spans r.encode address { r.counted.shown with address } r.counted.encode.length := by
  have hlen : r.counted.players.length ≤ 2147483647 := List.length_take_le _ _
  have hspans := spans_of_takes (takes_encode h.counted hlen address)
    (encodeFields ((r.players.drop 2147483647).flatMap PlayerRecord.fields))
  rw [← encode_eq_counted] at hspans
  exact hspans

theorem parse_encode_counted (h : r.Writable) (address : String) :
    parse r.encode address = .ok { r.counted.shown with address } := by
  have hparse := (spans_encode h address).whole (r.encode.drop r.counted.encode.length)
  rwa [List.take_append_drop] at hparse

theorem length_counted_iff (r : ServerRecord) :
    r.counted.encode.length = r.encode.length ↔ r.players.length ≤ 2147483647 := by
  rw [encode_eq_counted r, List.length_append]
  constructor
  · intro hlength
    by_contra hmany
    obtain ⟨p, ps, hdrop⟩ := List.exists_cons_of_ne_nil
      (mt List.drop_eq_nil_iff.mp hmany)
    have hp := p.length_encode_pos
    rw [hdrop, List.flatMap_cons, encodeFields_append, List.length_append] at hlength
    omega
  · intro hlen
    rw [List.drop_eq_nil_iff.mpr hlen]
    rfl

/-- A record that is read ends at one place only. One that was written ends with its last byte, as
long as its players can be counted. -/
theorem ends_once (address : String) :
    (∀ bs r, parse bs address = .ok r → ∃! n, Spans bs address r n) ∧
      ∀ r : ServerRecord, r.Writable → ∃ s, parse r.encode address = .ok s ∧
        ∀ n, Spans r.encode address s n →
          (n = r.encode.length ↔ r.players.length ≤ 2147483647) := by
  constructor
  · intro bs r h
    obtain ⟨n, hn⟩ := exists_spans h
    exact ⟨n, hn, fun k hk => hk.unique hn⟩
  · intro r h
    refine ⟨_, parse_encode_counted h address, fun n hn => ?_⟩
    rw [hn.unique (spans_encode h address)]
    exact length_counted_iff r

theorem ends_once_smudge :
    parse smudge "10.0.0.1:8303" = .ok smudged ∧ cabaret.Writable ∧
      (∃! n, Spans smudge "10.0.0.1:8303" smudged n) ∧
      ∃ s, parse cabaret.encode "10.0.0.1:8303" = .ok s ∧
        ∀ n, Spans cabaret.encode "10.0.0.1:8303" s n →
          (n = cabaret.encode.length ↔ cabaret.players.length ≤ 2147483647) :=
  ⟨parse_smudge, writable_cabaret, (ends_once "10.0.0.1:8303").1 smudge smudged parse_smudge,
    (ends_once "10.0.0.1:8303").2 cabaret writable_cabaret⟩

def crowd (n : Nat) : ServerRecord :=
  { cabaret with players := List.replicate n ⟨"", "", 0, 0, 0⟩ }

theorem writable_crowd (n : Nat) : (crowd n).Writable :=
  { writable_cabaret with
    players := by
      intro p hp
      obtain rfl := List.eq_of_mem_replicate hp
      decide }

/-- Of one player more than can be counted the last is written, in five bytes, and never read. -/
theorem crowd_ends_early : (crowd 2147483648).Writable ∧
    ∃ s, parse (crowd 2147483648).encode "10.0.0.1:8303" = .ok s ∧
      (∃! n, Spans (crowd 2147483648).encode "10.0.0.1:8303" s n) ∧
      ∀ n, Spans (crowd 2147483648).encode "10.0.0.1:8303" s n →
        n + 5 = (crowd 2147483648).encode.length := by
  have hwritable := writable_crowd 2147483648
  have hspans := spans_encode hwritable "10.0.0.1:8303"
  have hlast : (crowd 2147483648).players.drop 2147483647 = [⟨"", "", 0, 0, 0⟩] :=
    List.drop_replicate
  have hfive : (encodeFields ([⟨"", "", 0, 0, 0⟩].flatMap PlayerRecord.fields)).length = 5 := by
    decide +kernel
  refine ⟨hwritable, _, parse_encode_counted hwritable _,
    ⟨_, hspans, fun n hn => hn.unique hspans⟩, fun n hn => ?_⟩
  rw [hn.unique hspans, encode_eq_counted (crowd 2147483648), List.length_append, hlast, hfive]

end ServerRecord
end ServerDiscovery
