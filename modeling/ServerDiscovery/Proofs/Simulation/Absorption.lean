import ServerDiscovery.Proofs.Client.Absorption
import ServerDiscovery.Proofs.Packet.Grammar
import ServerDiscovery.Proofs.Packet.Listing
import ServerDiscovery.Proofs.Simulation.Collection
import ServerDiscovery.Proofs.Simulation.Script
import ServerDiscovery.Proofs.Simulation.Spans

/-! How long a list may get, whatever a script holds. A datagram is cut to the size of the buffer,
which leaves room for so many servers in a piece, and the pieces that name somebody new are few. -/

namespace ServerDiscovery

open Client Query

namespace Simulation

def greatestPiece : Nat := 82

theorem Script.length_le_of_receive (k : Script) {datagram : Bytes} {source : SocketAddress}
    (h : (Transport.receive k).1 = .datagram datagram source) :
    datagram.length ≤ Packet.maxSize := by
  change (Wait.of k.now k.deadline k.cancelAt k.next?).reception = _ at h
  rcases Wait.of_cases k.now k.deadline k.cancelAt k.next? with ⟨due, arrival, -, hwait⟩ | ⟨-, hnone⟩
  · rw [hwait] at h
    cases arrival with
    | failure => cases h
    | datagram payload source' =>
      cases h
      exact List.length_take_le ..
  · rw [h] at hnone
    cases hnone

theorem length_le_of_piece? {e : Endpoint} {t : Time} {datagram : Bytes} {source : SocketAddress}
    {piece : List Endpoint} (h : piece? e (.received t (.datagram datagram source)) = some piece)
    (hsize : datagram.length ≤ Packet.maxSize) : piece.length ≤ greatestPiece := by
  obtain ⟨_, _, _, payload, ho, -, hpayload, rfl⟩ := piece?_eq_some_iff.mp h
  cases ho
  have hreads := Packet.reads_of_matchResponse (Packet.expectResponse_eq_ok_iff.mp hpayload)
  have hlength : datagram.length = 9 + 8 + payload.length := hreads.length_eq (by decide)
  rw [Packet.maxSize] at hsize
  rw [Packet.length_parseList, greatestPiece]
  omega

section Watch

variable {s s' : Session} {k k' : Script} {a : SocketAddress} {patience : Nat} {os : List Occurrence}
  {end? : Option ((Except Failure (List Endpoint) × Session) × Script)} {es piece : List Endpoint}

theorem length_le_of_absorbed {e : Endpoint}
    (hwatch : ((servers patience).dialogue s).watch k = (os, end?)) (h : piece ∈ absorbed e os) :
    piece.length ≤ greatestPiece := by
  obtain ⟨o, ho, hpiece⟩ := List.mem_filterMap.mp h
  obtain ⟨t, datagram, source, payload, rfl, -⟩ := piece?_eq_some_iff.mp hpiece
  have hreceived : .received t (.datagram datagram source) ∈
      (((servers patience).dialogue s).watch k).1 := by
    rw [hwatch]
    exact (List.dropWhile_sublist _).subset ho
  have hsize := Dialogue.of_received_watch
    (P := fun x => ∀ datagram source, x = .datagram datagram source →
      datagram.length ≤ Packet.maxSize)
    (fun k _ _ h => k.length_le_of_receive h) _ k hreceived datagram source rfl
  exact length_le_of_piece? hpiece hsize

theorem novel_absorbed_le (ha : s.target = some a)
    (hwatch : ((servers patience).dialogue s).watch k = (os, end?)) :
    novel [] (absorbed (.ofSocket a) os) ≤ expectedChunks Packet.greatestCount := by
  obtain ⟨m', hcourse, -⟩ := ((servers patience).dialogue s).course_watch k
  rw [hwatch] at hcourse
  exact (always_servers_absorbed patience ha os _ m' hcourse).1

theorem eq_distinct_absorbed
    (hwatch : ((servers patience).dialogue s).watch k = (os, some ((.ok es, s'), k'))) :
    ∃ a, s.target = some a ∧ es = Endpoint.distinct (absorbed (.ofSocket a) os).flatten := by
  cases ha : s.target with
  | none =>
    have hnone : ((servers patience).dialogue s).watch k = ([], some ((.error .noTarget, s), k)) := by
      rw [servers, dialogue_target_bind_of_none ha]
      rfl
    cases hwatch.symm.trans hnone
  | some a =>
    obtain ⟨m', hcourse, -⟩ := ((servers patience).dialogue s).course_watch k
    rw [hwatch] at hcourse
    exact ⟨a, rfl, (always_servers_absorbed patience ha os _ m' hcourse).2 (.ok es, s') rfl es rfl⟩

theorem length_le_of_watch
    (hwatch : ((servers patience).dialogue s).watch k = (os, some ((.ok es, s'), k'))) :
    es.length ≤ expectedChunks Packet.greatestCount * greatestPiece := by
  obtain ⟨a, ha, rfl⟩ := eq_distinct_absorbed hwatch
  have hpieces : ∀ piece ∈ absorbed (.ofSocket a) os, piece.length ≤ greatestPiece :=
    fun _ => length_le_of_absorbed hwatch
  refine (length_distinct_append_flatten_le hpieces []).trans ((Nat.zero_add _).trans_le ?_)
  exact Nat.mul_le_mul_right greatestPiece (novel_absorbed_le ha hwatch)

end Watch

/-- The list of a master, whatever it sends and however often. What any four bytes say as a count
is bounded, and is what they spell as digits only where it could not be less; so the pieces that
name somebody new are few, and since none is longer than the buffer, so are the servers. A list is
all that its pieces name, each server once, and asking for it comes to an end. -/
theorem list_bounded :
    (∀ payload : Bytes, payload.length ≤ 4 → ∃ count, Packet.parseCount payload = .ok count ∧
      count ≤ 2047 ∧ count ≤ payload.bigEndian ∧
        (count = payload.bigEndian ↔ ∀ b ∈ payload.dropLast, b = 0)) ∧
    (∀ payload : Bytes, 4 < payload.length →
      Packet.parseCount payload = .error (.malformed .longServerCount)) ∧
    (∀ (s : Session) (k : Script) patience os end?,
      ((servers patience).dialogue s).watch k = (os, end?) →
        (∀ a, s.target = some a → novel [] (absorbed (.ofSocket a) os) ≤ 28) ∧
        ∀ es s' k', end? = some ((.ok es, s'), k') → es.length ≤ 28 * 82 ∧
          ∃ a, s.target = some a ∧ es = Endpoint.distinct (absorbed (.ofSocket a) os).flatten) ∧
    ∀ (s : Session) (k : Script), 0 < s.settings.minTimeout →
      ∃ r s' k', Query.Concludes servers s k r s' k' := by
  refine ⟨fun payload hshort => ⟨_, Packet.parseCount_of_short hshort,
      Packet.countBits_le_of_short hshort, Packet.countBits_le_bigEndian payload,
      Packet.countBits_eq_bigEndian_iff payload⟩,
    fun payload hlong => Packet.parseCount_of_long hlong, ?_, ?_⟩
  · rintro s k patience os end? hwatch
    refine ⟨fun a ha => novel_absorbed_le ha hwatch, ?_⟩
    rintro es s' k' rfl
    exact ⟨length_le_of_watch hwatch, eq_distinct_absorbed hwatch⟩
  · intro s k hmin
    obtain ⟨r, s', k', hend, -⟩ := ends_servers hmin s k rfl
    exact ⟨r, s', k', hend⟩

def greedy : Script :=
  .new [⟨3, 0, .datagram (Token.responseFrame 7 9) master⟩,
    masterCue 5 .count [0xff, 0xff, 0xff, 0xff], pieceCue 8 [listed 1], pieceCue 9 [listed 1],
    pieceCue 10 [listed 1, listed 2, listed 3]] [] none

theorem list_bounded_greedy :
    Packet.parseCount [0xff, 0xff, 0xff, 0xff] = .ok 2047 ∧
      2047 ≠ Bytes.bigEndian [0xff, 0xff, 0xff, 0xff] ∧
      Packet.parseCount [0, 0, 0, 0, 1] = .error (.malformed .longServerCount) ∧
      (∃ os s' k', ((servers 5).dialogue opener).watch greedy =
        (os, some ((.ok [listed 1, listed 2, listed 3], s'), k')) ∧
        [listed 1, listed 2, listed 3] = Endpoint.distinct (absorbed (.ofSocket master) os).flatten ∧
        novel [] (absorbed (.ofSocket master) os) ≤ 28) ∧
      ∃ r s' k', Query.Concludes servers opener greedy r s' k' := by
  obtain ⟨hshort, hlong, hwatched, hends⟩ := list_bounded
  obtain ⟨count, hcount, -, -, hdigits⟩ := hshort [0xff, 0xff, 0xff, 0xff] (by decide)
  obtain rfl : 2047 = count := Except.ok.inj hcount
  have hones : ¬ ∀ b ∈ List.dropLast [0xff, 0xff, 0xff, 0xff], b = (0 : UInt8) :=
    fun hzero => absurd (hzero 0xff List.mem_cons_self) (by decide)
  refine ⟨hcount, mt hdigits.mp hones, hlong [0, 0, 0, 0, 1] (by decide), ?_,
    hends opener greedy (by decide)⟩
  have hresult : (((servers 5).dialogue opener).watch greedy).2.bind (fun p => p.1.1.toOption) =
      some [listed 1, listed 2, listed 3] := by decide +kernel
  obtain ⟨⟨⟨r, s'⟩, k'⟩, hend, hr⟩ := Option.bind_eq_some_iff.mp hresult
  obtain rfl : r = .ok [listed 1, listed 2, listed 3] := by
    cases r with
    | error f => cases hr
    | ok es => exact congrArg Except.ok (Option.some.inj hr)
  have hwatch : ((servers 5).dialogue opener).watch greedy = (_, some ((.ok _, s'), k')) :=
    Prod.ext rfl hend
  obtain ⟨hfew, hlist⟩ := hwatched opener greedy 5 _ _ hwatch
  obtain ⟨-, a, ha, hes⟩ := hlist _ s' k' rfl
  obtain rfl : master = a := Option.some.inj ha
  exact ⟨_, s', k', hwatch, hes, hfew master rfl⟩

end Simulation
end ServerDiscovery
