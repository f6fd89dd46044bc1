import Mathlib.Order.MinMax
import Mathlib.Tactic.SplitIfs
import ServerDiscovery.Proofs.Client.Watch
import ServerDiscovery.Simulation.Script
import ServerDiscovery.Simulation.Socket

/-! The simulated sockets keep the promises of a clock. -/

namespace ServerDiscovery.Simulation

open Client

def Wait.Fits (w : Wait) (now deadline : Time) : Prop :=
  now ≤ w.ends ∧ w.ends ≤ max now deadline ∧ (w.reception = .timedOut → w.ends = max now deadline)

theorem Arrival.reception_ne_timedOut (x : Arrival) : x.reception ≠ .timedOut := by
  cases x <;> simp [reception]

theorem Wait.fits_of_uncancelled (now deadline : Time) (next : Option (Time × Arrival)) :
    (Wait.of now deadline none next).Fits now deadline := by
  have hnone : Wait.Fits ⟨.timedOut, max now deadline, false⟩ now deadline :=
    ⟨le_max_left _ _, le_rfl, fun _ => rfl⟩
  cases next with
  | none => exact hnone
  | some cue =>
    obtain ⟨due, arrival⟩ := cue
    simp only [Wait.of]
    split_ifs with hdue
    · refine ⟨le_max_left _ _, ?_, fun h => absurd h arrival.reception_ne_timedOut⟩
      rcases hdue with hdue | hdue
      · exact max_le (le_max_left _ _) (hdue.trans (le_max_left _ _))
      · exact max_le_max_left now hdue
    · exact hnone

theorem Wait.fits (now deadline : Time) (cancelAt : Option Time) (next : Option (Time × Arrival)) :
    (Wait.of now deadline cancelAt next).Fits now deadline := by
  have hnatural := Wait.fits_of_uncancelled now deadline next
  cases cancelAt with
  | none => exact hnatural
  | some cancel =>
    simp only [Wait.of] at hnatural ⊢
    split_ifs with hnow hbefore
    · exact ⟨le_rfl, le_max_left _ _, by simp⟩
    · exact ⟨(not_le.mp hnow).le, hbefore.le.trans hnatural.2.1, by simp⟩
    · exact hnatural

instance : LawfulTransport Script where
  deadline := Script.deadline
  now_readUntil _ _ := rfl
  deadline_readUntil _ _ := rfl
  now_writeUntil _ _ := rfl
  deadline_writeUntil _ _ := rfl
  now_send target datagram copies k := by
    simp only [Transport.send, Transport.now, Script.send]
    split_ifs <;> rfl
  deadline_send target datagram copies k := by
    simp only [Transport.send, Script.send]
    split_ifs <;> rfl
  le_now_receive k := (Wait.fits k.now k.deadline k.cancelAt k.next?).1
  now_receive_le k := (Wait.fits k.now k.deadline k.cancelAt k.next?).2.1
  now_receive_timedOut k := (Wait.fits k.now k.deadline k.cancelAt k.next?).2.2
  deadline_receive _ := rfl

theorem World.now_send (w : World) (target : SocketAddress) (datagram : Bytes) :
    (w.send target datagram).2.2.now = w.now := by
  simp only [World.send]
  split_ifs
  · rfl
  · split <;> rfl

theorem Socket.send_eq (k : Socket) (target : SocketAddress) (datagram : Bytes) (copies : Nat) :
    (k.send target datagram copies).now = k.now ∧
      (k.send target datagram copies).deadline = k.deadline := by
  induction copies generalizing k with
  | zero => exact ⟨rfl, rfl⟩
  | succ copies ih =>
    have hnow := k.world.now_send target datagram
    simp only [Socket.send]
    split_ifs
    · exact ⟨hnow, rfl⟩
    · exact ⟨(ih _).1.trans hnow, (ih _).2⟩

theorem Socket.receive_fits (k : Socket) :
    ∃ w : Wait, k.receive.1 = w.reception ∧ k.receive.2.now = w.ends ∧ w.Fits k.now k.deadline :=
  ⟨_, rfl, rfl, Wait.fits ..⟩

instance : LawfulTransport Socket where
  deadline := Socket.deadline
  now_readUntil _ _ := rfl
  deadline_readUntil _ _ := rfl
  now_writeUntil _ _ := rfl
  deadline_writeUntil _ _ := rfl
  now_send target datagram copies k := (k.send_eq target datagram copies).1
  deadline_send target datagram copies k := (k.send_eq target datagram copies).2
  le_now_receive k := by
    obtain ⟨w, -, hnow, hfits⟩ := k.receive_fits
    exact hfits.1.trans_eq hnow.symm
  now_receive_le k := by
    obtain ⟨w, -, hnow, hfits⟩ := k.receive_fits
    exact hnow.trans_le hfits.2.1
  now_receive_timedOut k h := by
    obtain ⟨w, hreception, hnow, hfits⟩ := k.receive_fits
    exact hnow.trans (hfits.2.2 (hreception.symm.trans h))
  deadline_receive _ := rfl

end ServerDiscovery.Simulation
