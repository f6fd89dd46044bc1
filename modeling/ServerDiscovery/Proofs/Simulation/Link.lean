import Mathlib.Data.List.Basic
import ServerDiscovery.Proofs.Host
import ServerDiscovery.Proofs.Simulation.Lawful
import ServerDiscovery.Simulation.Link

/-! What a burst of copies does to a link: those that the host still loses leave no trace, and each
of the others brings one more of the same reply. -/

namespace ServerDiscovery.Simulation.Link

open Client

variable {l : Link} {target : SocketAddress} {datagram reply : Bytes}

theorem send_succ (l : Link) (target : SocketAddress) (datagram : Bytes) (n : Nat) :
    l.send target datagram (n + 1) = (l.deliver target datagram).send target datagram n := rfl

theorem send_add (l : Link) (target : SocketAddress) (datagram : Bytes) (m n : Nat) :
    l.send target datagram (m + n) = (l.send target datagram m).send target datagram n := by
  induction m generalizing l with
  | zero => rw [Nat.zero_add]; rfl
  | succ m ih => rw [Nat.succ_add, send_succ, ih, send_succ]

theorem send_frame (l : Link) (target : SocketAddress) (datagram : Bytes) (n : Nat) :
    (l.send target datagram n).now = l.now ∧ (l.send target datagram n).deadline = l.deadline ∧
      (l.send target datagram n).client = l.client := by
  induction n generalizing l with
  | zero => exact ⟨rfl, rfl, rfl⟩
  | succ n ih => exact ih _

instance : LawfulTransport Link where
  deadline := Link.deadline
  now_readUntil _ _ := rfl
  deadline_readUntil _ _ := rfl
  now_writeUntil _ _ := rfl
  deadline_writeUntil _ _ := rfl
  now_send target datagram copies l := (l.send_frame target datagram copies).1
  deadline_send target datagram copies l := (l.send_frame target datagram copies).2.1
  le_now_receive l := (Wait.fits l.now l.deadline none _).1
  now_receive_le l := (Wait.fits l.now l.deadline none _).2.1
  now_receive_timedOut l := (Wait.fits l.now l.deadline none _).2.2
  deadline_receive _ := rfl

theorem send_lost {n : Nat} (h : l.host.stats.received + n ≤ l.host.settings.dropFirst) :
    ∃ stats, stats.received = l.host.stats.received + n ∧
      l.send target datagram n = { l with host := { l.host with stats } } := by
  -- What the host still has to lose goes down with each copy.
  induction n generalizing l with
  | zero => exact ⟨_, rfl, rfl⟩
  | succ n ih =>
    have hdrops : l.host.drops = true := by
      have hlt : l.host.stats.received < l.host.settings.dropFirst := by omega
      simp [Host.drops, hlt]
    have hdeliver : l.deliver target datagram =
        { l with host := { l.host with stats := l.host.stats.note .dropped } } := by
      unfold deliver Host.answer
      rw [hdrops]
      simp
    have hcount : (l.host.stats.note .dropped).received = l.host.stats.received + 1 := rfl
    rw [send_succ, hdeliver]
    obtain ⟨stats, hstats, hsend⟩ := ih (l := { l with
      host := { l.host with stats := l.host.stats.note .dropped } }) (by
        show (l.host.stats.note .dropped).received + n ≤ l.host.settings.dropFirst
        omega)
    refine ⟨stats, ?_, hsend⟩
    rw [hstats]
    show (l.host.stats.note .dropped).received + n = _
    omega

theorem deliver_eq (l : Link) (target : SocketAddress) (datagram : Bytes) :
    l.deliver target datagram = { l with
      host := (l.host.answer l.now datagram l.client).2
      replies := l.replies ++
        (l.host.answer l.now datagram l.client).1.map fun payload => (payload, target) } := rfl

theorem send_answered {P : Host → Prop}
    (hP : ∀ h, P h → ∃ h', h.answer l.now datagram l.client = ([reply], h') ∧ P h')
    (h : P l.host) (target : SocketAddress) (n : Nat) :
    ∃ host, P host ∧ l.send target datagram n =
      { l with host, replies := l.replies ++ List.replicate n (reply, target) } := by
  induction n generalizing l with
  | zero => exact ⟨l.host, h, by simp [send]⟩
  | succ n ih =>
    obtain ⟨h', hanswer, hhost⟩ := hP l.host h
    rw [send_succ, deliver_eq, hanswer]
    obtain ⟨host, hhost', hsend⟩ := ih (l := { l with
        host := h'
        replies := l.replies ++ [(reply, target)] }) hP hhost
    refine ⟨host, hhost', hsend.trans ?_⟩
    simp [List.replicate_succ]

theorem receive_cons {payload : Bytes} {source : SocketAddress}
    {replies : List (Bytes × SocketAddress)} (h : l.replies = (payload, source) :: replies) :
    l.receive = (.datagram (payload.take Packet.maxSize) source, { l with replies }) := by
  unfold receive
  rw [h]
  simp [Wait.of, Arrival.reception]

theorem receive_nil (h : l.replies = []) :
    l.receive = (.timedOut, { l with now := max l.now l.deadline }) := by
  unfold receive
  rw [h]
  simp [Wait.of]

end ServerDiscovery.Simulation.Link
