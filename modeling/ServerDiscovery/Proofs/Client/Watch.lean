import ServerDiscovery.Proofs.Client.History

/-! Dialogues over a transport whose clock keeps its promises. Whatever occurs in a run is one of
their courses, so that what holds of all histories holds of every session over such a transport. -/

namespace ServerDiscovery.Client

open Dialogue

/-- Only receiving takes time, and no more of it than the deadline leaves. -/
class LawfulTransport (σ : Type) [Transport σ] where
  deadline : σ → Time
  now_readUntil (d : Time) (k : σ) : Transport.now (Transport.readUntil d k) = Transport.now k
  deadline_readUntil (d : Time) (k : σ) : deadline (Transport.readUntil d k) = d
  now_writeUntil (d : Time) (k : σ) : Transport.now (Transport.writeUntil d k) = Transport.now k
  deadline_writeUntil (d : Time) (k : σ) : deadline (Transport.writeUntil d k) = deadline k
  now_send (target : SocketAddress) (datagram : Bytes) (copies : Nat) (k : σ) :
    Transport.now (Transport.send target datagram copies k) = Transport.now k
  deadline_send (target : SocketAddress) (datagram : Bytes) (copies : Nat) (k : σ) :
    deadline (Transport.send target datagram copies k) = deadline k
  le_now_receive (k : σ) : Transport.now k ≤ Transport.now (Transport.receive k).2
  now_receive_le (k : σ) :
    Transport.now (Transport.receive k).2 ≤ max (Transport.now k) (deadline k)
  now_receive_timedOut (k : σ) : (Transport.receive k).1 = .timedOut →
    Transport.now (Transport.receive k).2 = max (Transport.now k) (deadline k)
  deadline_receive (k : σ) : deadline (Transport.receive k).2 = deadline k

variable {σ α : Type} [Transport σ]

def Dialogue.watch : Dialogue α → σ → List Occurrence × Option (α × σ)
  | .finish a, k => ([], some (a, k))
  | .stall, _ => ([], none)
  | .clock next, k => (next (Transport.now k)).watch k
  | .readUntil deadline next, k => next.watch (Transport.readUntil deadline k)
  | .writeUntil deadline next, k => next.watch (Transport.writeUntil deadline k)
  | .send target datagram copies next, k =>
    let (os, end?) := next.watch (Transport.send target datagram copies k)
    (.sent (Transport.now k) target datagram copies :: os, end?)
  | .receive next, k =>
    let (r, k) := Transport.receive k
    let (os, end?) := (next r).watch k
    (.received (Transport.now k) r :: os, end?)

theorem Dialogue.watch_snd (d : Dialogue α) (k : σ) : (d.watch k).2 = d.run k := by
  induction d generalizing k with
  | finish | stall => rfl
  | clock next ih => exact ih _ k
  | readUntil _ _ ih | writeUntil _ _ ih | send _ _ _ _ ih => exact ih _
  | receive next ih => exact ih _ _

theorem Dialogue.of_received_watch {P : Reception → Prop} (hP : ∀ k : σ, P (Transport.receive k).1)
    (d : Dialogue α) (k : σ) {t : Time} {x : Reception} (h : .received t x ∈ (d.watch k).1) :
    P x := by
  induction d generalizing k with
  | finish | stall => cases h
  | clock next ih => exact ih _ k h
  | readUntil _ _ ih | writeUntil _ _ ih => exact ih _ h
  | send _ _ _ _ ih =>
    rcases List.mem_cons.mp h with hhere | hlater
    · cases hhere
    · exact ih _ hlater
  | receive next ih =>
    rcases List.mem_cons.mp h with hhere | hlater
    · cases hhere
      exact hP k
    · exact ih _ _ hlater

variable [LawfulTransport σ]

def moment (k : σ) : Moment := ⟨Transport.now k, LawfulTransport.deadline k⟩

theorem Dialogue.course_watch (d : Dialogue α) (k : σ) :
    ∃ m', Course d (moment k) (d.watch k).1 ((d.watch k).2.map Prod.fst) m' ∧
      ∀ p, (d.watch k).2 = some p → m' = moment p.2 := by
  induction d generalizing k with
  | finish a => exact ⟨moment k, .finish a _, by rintro _ ⟨⟩; rfl⟩
  | stall => exact ⟨moment k, .broken _ _, by rintro _ ⟨⟩⟩
  | clock next ih =>
    obtain ⟨m', hc, hm⟩ := ih _ k
    exact ⟨m', .clock hc, hm⟩
  | readUntil deadline next ih =>
    obtain ⟨m', hc, hm⟩ := ih (Transport.readUntil deadline k)
    rw [moment, LawfulTransport.now_readUntil, LawfulTransport.deadline_readUntil] at hc
    exact ⟨m', .readUntil hc, hm⟩
  | writeUntil deadline next ih =>
    obtain ⟨m', hc, hm⟩ := ih (Transport.writeUntil deadline k)
    rw [moment, LawfulTransport.now_writeUntil, LawfulTransport.deadline_writeUntil] at hc
    exact ⟨m', .writeUntil hc, hm⟩
  | send target datagram copies next ih =>
    obtain ⟨m', hc, hm⟩ := ih (Transport.send target datagram copies k)
    rw [moment, LawfulTransport.now_send, LawfulTransport.deadline_send] at hc
    exact ⟨m', .send hc, hm⟩
  | receive next ih =>
    obtain ⟨m', hc, hm⟩ := ih _ (Transport.receive k).2
    rw [moment, LawfulTransport.deadline_receive] at hc
    exact ⟨m', .receive _ _ (LawfulTransport.le_now_receive k) (LawfulTransport.now_receive_le k)
      (LawfulTransport.now_receive_timedOut k) hc, hm⟩

theorem Dialogue.course_of_run {d : Dialogue α} {k k' : σ} {a : α} (h : d.run k = some (a, k')) :
    ∃ os, Course d (moment k) os (some a) (moment k') := by
  obtain ⟨m', hc, hm⟩ := d.course_watch k
  rw [watch_snd, h] at hc hm
  obtain rfl := hm _ rfl
  exact ⟨_, hc⟩

def Session.entries (patience : Nat) : List Call → Session → σ → List Entry
  | [], _, _ => []
  | c :: cs, s, k =>
    match ((c.query patience).dialogue s).watch k with
    | (os, some ((r, s'), k')) => ⟨c, s.target, os, some r⟩ :: entries patience cs s' k'
    | (os, none) => [⟨c, s.target, os, none⟩]

theorem History.observed_entries {settings : Settings} {es : List Entry} {s : Session} {k : σ}
    (h : History settings es s (moment k)) (patience : Nat) (cs : List Call) :
    Observed settings (es ++ s.entries patience cs k) := by
  induction cs generalizing es s k with
  | nil => simpa [Session.entries] using Observed.idle h
  | cons c cs ih =>
    obtain ⟨m', hc, hm⟩ := ((c.query patience).dialogue s).course_watch k
    simp only [Session.entries]
    split
    · rename_i os r s' k' hwatch
      rw [hwatch] at hc hm
      obtain rfl := hm _ rfl
      have hnext := ih (h.call c patience hc)
      simpa using hnext
    · rename_i os hwatch
      rw [hwatch] at hc
      exact .calling c patience h hc

theorem Session.observed_entries (settings : Settings) (supply : Token.Supply) (patience : Nat)
    (cs : List Call) (k : σ) :
    Observed settings ((Session.new settings supply).entries patience cs k) := by
  simpa using (History.opened supply (moment k)).observed_entries patience cs

end ServerDiscovery.Client
