import Mathlib.Data.List.Basic
import ServerDiscovery.Proofs.Client.Concluding
import ServerDiscovery.Proofs.Simulation.Ending

/-! What is over before the end of a script has nothing to do with that end. A run that always found
more than the last few cues goes on in the same way when others are written in their place. -/

namespace ServerDiscovery

open Client

namespace Simulation

variable {α : Type} {s s₁ u : Script} {pre rest : List Cue} {n : Nat}

def Spares (n : Nat) : Dialogue α → Script → Prop
  | .finish _, _ | .stall, _ => True
  | .clock next, s => Spares n (next s.now) s
  | .readUntil deadline next, s => Spares n next (Transport.readUntil deadline s)
  | .writeUntil deadline next, s => Spares n next (Transport.writeUntil deadline s)
  | .send target datagram copies next, s => Spares n next (s.send target datagram copies)
  | .receive next, s =>
    n < s.queue.length ∧ Spares n (next (Transport.receive s).1) (Transport.receive s).2

namespace Script

theorem spares_of_run {d : Dialogue α} {a : α} (s : Script) (hrun : d.run s = some (a, u))
    (hn : n < u.queue.length) : Spares n d s := by
  induction d generalizing s with
  | finish | stall => trivial
  | clock next ih => exact ih _ s hrun
  | readUntil deadline next ih => exact ih (Transport.readUntil deadline s) hrun
  | writeUntil deadline next ih => exact ih (Transport.writeUntil deadline s) hrun
  | send target datagram copies next ih => exact ih (s.send target datagram copies) hrun
  | receive next ih =>
    exact ⟨hn.trans_le (run_frame s hrun).2.length_le, ih _ (Transport.receive s).2 hrun⟩

theorem receive_retail (c : Cue) (hqueue : s.queue = c :: (pre ++ rest)) (rest' : List Cue) :
    ∃ pre', (Transport.receive s).2.queue = pre' ++ rest ∧
      Transport.receive { s with queue := c :: (pre ++ rest') } =
        ((Transport.receive s).1, { (Transport.receive s).2 with queue := pre' ++ rest' }) := by
  have hnext : s.next? = if c.afterSends ≤ s.sends then some (c.due, c.arrival) else none := by
    rw [next?, hqueue]
  simp only [receive_of_wait rfl]
  have hsame : Wait.of s.now s.deadline s.cancelAt (next? { s with queue := c :: (pre ++ rest') }) =
      Wait.of s.now s.deadline s.cancelAt s.next? := by
    rw [hnext]
    rfl
  simp only [hsame, hqueue]
  cases (Wait.of s.now s.deadline s.cancelAt s.next?).consumes with
  | false => exact ⟨c :: pre, rfl, rfl⟩
  | true => exact ⟨pre, rfl, rfl⟩

theorem run_retail {d : Dialogue α} {a : α} (s : Script) (hspares : Spares rest.length d s)
    (hqueue : s.queue = pre ++ rest) (hrun : d.run s = some (a, u)) (rest' : List Cue) :
    ∃ pre', u.queue = pre' ++ rest ∧
      d.run { s with queue := pre ++ rest' } = some (a, { u with queue := pre' ++ rest' }) := by
  induction d generalizing s pre with
  | finish =>
    cases hrun
    exact ⟨pre, hqueue, rfl⟩
  | stall => cases hrun
  | clock next ih => exact ih _ s hspares hqueue hrun
  | readUntil deadline next ih => exact ih (Transport.readUntil deadline s) hspares hqueue hrun
  | writeUntil deadline next ih => exact ih (Transport.writeUntil deadline s) hspares hqueue hrun
  | send target datagram copies next ih =>
    obtain ⟨sends, journal, hsend⟩ := s.send_eq target datagram copies
    change Spares _ next (s.send target datagram copies) at hspares
    change next.run (s.send target datagram copies) = _ at hrun
    rw [hsend s.queue s.cancelAt] at hspares hrun
    obtain ⟨pre', hu, hrun'⟩ := ih { s with sends, journal } hspares hqueue hrun
    refine ⟨pre', hu, ?_⟩
    change next.run (Script.send { s with queue := pre ++ rest' } target datagram copies) = _
    rw [hsend]
    exact hrun'
  | receive next ih =>
    obtain ⟨hmore, hspares⟩ := hspares
    cases pre with
    | nil => exact absurd hmore (by rw [hqueue]; exact lt_irrefl _)
    | cons c pre =>
      obtain ⟨pre₁, hqueue₁, hreceive⟩ := receive_retail c hqueue rest'
      obtain ⟨pre', hu, hrun'⟩ := ih _ _ hspares hqueue₁ hrun
      refine ⟨pre', hu, ?_⟩
      rw [Dialogue.run, List.cons_append, hreceive]
      exact hrun'

theorem concludes_retail {d : Nat → Dialogue α} {a : α} (h : Dialogue.Concludes d s a u)
    (hspares : ∀ patience, (d patience).run s = some (a, u) → Spares rest.length (d patience) s)
    (hqueue : s.queue = pre ++ rest) : ∃ pre', u.queue = pre' ++ rest ∧ ∀ rest',
      Dialogue.Concludes d { s with queue := pre ++ rest' } a
        { u with queue := pre' ++ rest' } := by
  obtain ⟨enough, hrun⟩ := h
  have hrun₀ := hrun enough le_rfl
  obtain ⟨pre', hu, -⟩ := run_retail s (hspares _ hrun₀) hqueue hrun₀ []
  refine ⟨pre', hu, fun rest' => ⟨enough, fun patience hpatience => ?_⟩⟩
  have hrun' := hrun patience hpatience
  obtain ⟨pre'', hu', hretail⟩ := run_retail s (hspares _ hrun') hqueue hrun' rest'
  obtain rfl : pre' = pre'' := List.append_cancel_right (hu.symm.trans hu')
  exact hretail

section Inquire

variable {pacing : Pacing} {target : SocketAddress} {request : Bytes} {accept : Accept α} {a : α}

/-- All that is received, up to the reply that is accepted, comes before what is left in the end. -/
def Settles (d : Dialogue (Except Failure α)) (s u : Script) : Prop :=
  Spares u.queue.length d s ∧ u.queue.length < s.queue.length

theorem settles_attempt {x : Inquiry} {wait : Dialogue (Except Failure α)}
    (hwait : ∀ s, wait.run s = some (.ok a, u) → Settles wait s u)
    (hrun : (x.attempt wait).run s = some (.ok a, u)) : Settles (x.attempt wait) s u := by
  have hrun' := hrun
  rw [Inquiry.run_attempt_launch] at hrun'
  split_ifs at hrun' with hleft
  · cases hrun'
  · obtain ⟨hspares, hqueue⟩ := hwait _ hrun'
    rw [queue_launch] at hqueue
    refine ⟨?_, hqueue⟩
    have hbranch : Spares u.queue.length (x.attempt wait) s =
        Spares u.queue.length wait (x.launch s) := by
      simp only [Inquiry.attempt, Spares]
      exact congrArg (Spares u.queue.length · s) (if_neg hleft)
    rwa [hbranch]

theorem settles_receive {next : Reception → Dialogue (Except Failure α)} {reception : Reception}
    (hreceive : Transport.receive s = (reception, s₁)) (hqueue : u.queue.length < s.queue.length)
    (hspares : Spares u.queue.length (next reception) s₁) : Settles (.receive next) s u := by
  refine ⟨⟨hqueue, ?_⟩, hqueue⟩
  rw [hreceive]
  exact hspares

theorem settles_await (patience : Nat) (x : Inquiry)
    (hrun : (Inquiry.await accept patience x).run s = some (.ok a, u)) :
    Settles (Inquiry.await accept patience x) s u := by
  induction patience generalizing x s with
  | zero => cases hrun
  | succ patience ih =>
    rcases hreceive : Transport.receive s with ⟨reception, s₁⟩
    have hle : s₁.queue.length ≤ s.queue.length := (queue_receive hreceive).length_le
    rw [Inquiry.run_await, hreceive] at hrun
    cases hjudge : x.judge accept s₁.now reception with
    | ignore =>
      simp only [Transport.now, hjudge] at hrun
      obtain ⟨hspares, hqueue⟩ := ih x hrun
      refine settles_receive hreceive (hqueue.trans_le hle) ?_
      simpa only [Spares, hjudge] using hspares
    | reject =>
      simp only [Transport.now, hjudge] at hrun
      obtain ⟨hspares, hqueue⟩ := settles_attempt (fun _ => ih _) hrun
      refine settles_receive hreceive (hqueue.trans_le hle) ?_
      simpa only [Spares, hjudge] using hspares
    | settle result =>
      simp only [Transport.now, hjudge] at hrun
      cases hrun
      obtain ⟨-, hfalse⟩ | ⟨_, _, _, rfl, _⟩ := Inquiry.judge_settle hjudge
      · cases hfalse
      have hlength : s.queue.length = 1 + u.queue.length := length_queue (unread_receive hreceive)
      refine settles_receive hreceive (by lia) ?_
      simp only [Spares, hjudge]

theorem settles_inquire {patience : Nat}
    (hrun : (Client.inquire pacing target request accept patience).run s = some (.ok a, u)) :
    Settles (Client.inquire pacing target request accept patience) s u :=
  settles_attempt (fun _ => settles_await patience _) hrun

end Inquire

end Script
end Simulation
end ServerDiscovery
