import Mathlib.Data.List.Basic
import ServerDiscovery.Proofs.Client.Backoff
import ServerDiscovery.Proofs.Simulation.Lawful

/-! What an inquiry does with a script: what it takes off it, what it makes of the sends that fail,
and what the journal keeps of all that. -/

namespace ServerDiscovery.Simulation

open Client Inquiry

namespace Journal

variable {σ : Type}

def followedBy (j : Journal σ) (entries : List (Time × Event σ)) : Journal σ :=
  ⟨entries.reverse ++ j.events⟩

@[simp] theorem toList_followedBy (j : Journal σ) (entries : List (Time × Event σ)) :
    (j.followedBy entries).toList = j.toList ++ entries := by
  simp [followedBy, toList]

@[simp] theorem followedBy_followedBy (j : Journal σ) (es es' : List (Time × Event σ)) :
    (j.followedBy es).followedBy es' = j.followedBy (es ++ es') := by
  simp [followedBy]

theorem note_eq (j : Journal σ) (now : Time) (e : Event σ) :
    j.note now e = j.followedBy [(now, e)] := rfl

theorem noteSent_eq [DecidableEq σ] {j : Journal σ} {what : σ}
    (h : ∀ time n, (time, .sent what n) ∉ j.events.head?) (now : Time) (copies : Nat) :
    j.noteSent now what copies =
      j.followedBy (if copies = 0 then [] else [(now, .sent what copies)]) := by
  unfold noteSent
  split_ifs with hnone
  · rfl
  · split
    · rename_i time before n earlier hevents
      have hne : ¬(time = now ∧ before = what) := by
        rintro ⟨-, rfl⟩
        exact h time n (by rw [hevents]; rfl)
      exact if_neg hne
    · rfl

end Journal

theorem Arrival.isArrival_reception (a : Arrival) : a.reception.isArrival = true := by
  cases a <;> rfl

theorem Wait.of_some (now deadline cancel : Time) (next : Option (Time × Arrival)) :
    Wait.of now deadline (some cancel) next =
      if cancel ≤ now then ⟨.cancelled, now, false⟩
      else if cancel < (Wait.of now deadline none next).ends then ⟨.cancelled, cancel, false⟩
      else Wait.of now deadline none next := rfl

theorem Wait.of_cases (now deadline : Time) (cancelAt : Option Time)
    (next : Option (Time × Arrival)) :
    (∃ due arrival, next = some (due, arrival) ∧
        Wait.of now deadline cancelAt next = ⟨arrival.reception, max now due, true⟩) ∨
      (Wait.of now deadline cancelAt next).consumes = false ∧
        (Wait.of now deadline cancelAt next).reception.isArrival = false := by
  have hnatural : (∃ due arrival, next = some (due, arrival) ∧
        Wait.of now deadline none next = ⟨arrival.reception, max now due, true⟩) ∨
      (Wait.of now deadline none next).consumes = false ∧
        (Wait.of now deadline none next).reception.isArrival = false := by
    cases next with
    | none => exact .inr ⟨rfl, rfl⟩
    | some cue =>
      simp only [Wait.of]
      split_ifs with hdue
      · exact .inl ⟨cue.1, cue.2, rfl, rfl⟩
      · exact .inr ⟨rfl, rfl⟩
  cases cancelAt with
  | none => exact hnatural
  | some cancel =>
    simp only [Wait.of] at hnatural ⊢
    split_ifs with hnow hbefore
    · exact .inr ⟨rfl, rfl⟩
    · exact .inr ⟨rfl, rfl⟩
    · exact hnatural

theorem Wait.reception_ne_cancelled (now deadline : Time) (next : Option (Time × Arrival)) :
    (Wait.of now deadline none next).reception ≠ .cancelled := by
  intro h
  cases next with
  | none => cases h
  | some cue =>
    simp only [Wait.of] at h
    split_ifs at h
    cases harrival : cue.2 <;> rw [harrival] at h <;> cases h

def noted (heard : List (Time × Reception)) : List (Time × Event Shot) :=
  heard.flatMap fun p => ((event? p.2).map fun e => (p.1, e)).toList

theorem noted_append (heard heard' : List (Time × Reception)) :
    noted (heard ++ heard') = noted heard ++ noted heard' := List.flatMap_append

/-- A round over a script, as it is seen from outside. -/
structure Attempt where
  start : Time
  window : Time
  sent : Nat
  failed : Bool
  heard : List (Time × Reception)

namespace Attempt

def tries (a : Attempt) : Nat := a.sent + a.failed.toNat

def entries (pacing : Pacing) (target : SocketAddress) (request : Bytes) (a : Attempt) :
    List (Time × Event Shot) :=
  [(a.start, .readUntil a.window), (a.start, .writeUntil pacing.writeBudget)] ++
    (if a.sent = 0 then [] else [(a.start, .sent ⟨target, request, false⟩ a.sent)]) ++
    (if a.failed then [(a.start, .sent ⟨target, request, true⟩ 1)] else []) ++ noted a.heard

theorem entries_eq_append (pacing : Pacing) (target : SocketAddress) (request : Bytes)
    (a : Attempt) : a.entries pacing target request =
      { a with heard := [] }.entries pacing target request ++ noted a.heard := by
  simp [entries, noted]

def ofRound (r : Round Script) : Attempt where
  start := r.opening.now
  window := r.window
  sent := r.opening.sendsBeforeFailure r.inquiry.burst
  failed := r.opening.sendsBeforeFailure r.inquiry.burst < r.inquiry.burst
  heard := r.heard

end Attempt

namespace Script

variable {α : Type} {s s' : Script} {x : Inquiry} {accept : Accept α} {reception : Reception}
  {heard : List (Time × Reception)} {verdict : Verdict α} {result : Except Failure α}

section Receive

def unread (s : Script) : List Reception := s.queue.map fun c => c.arrival.reception

theorem next?_eq_some {due : Time} {arrival : Arrival} (h : s.next? = some (due, arrival)) :
    ∃ c rest, s.queue = c :: rest ∧ c.afterSends ≤ s.sends ∧ c.due = due ∧ c.arrival = arrival := by
  unfold next? at h
  split at h
  · rename_i c rest hqueue
    split_ifs at h with hsends
    cases h
    exact ⟨c, rest, hqueue, hsends, rfl, rfl⟩
  · cases h

theorem receive_of_wait {wait : Wait}
    (h : Wait.of s.now s.deadline s.cancelAt s.next? = wait) :
    Transport.receive s = (wait.reception, { s with
      now := wait.ends
      queue := if wait.consumes then s.queue.drop 1 else s.queue
      journal := s.journal.followedBy (noted [(wait.ends, wait.reception)]) }) := by
  simp only [Transport.receive, receive, h]
  cases wait.reception <;> rfl

theorem receive_eq (h : Transport.receive s = (reception, s')) :
    ∃ now queue, s' = { s with
      now, queue, journal := s.journal.followedBy (noted [(now, reception)]) } := by
  cases (receive_of_wait rfl).symm.trans h
  exact ⟨_, _, rfl⟩

theorem queue_receive (h : Transport.receive s = (reception, s')) : s'.queue <:+ s.queue := by
  obtain rfl : _ = s' := congrArg Prod.snd h
  simp only [Transport.receive, receive]
  split_ifs
  · exact List.drop_suffix 1 _
  · exact List.suffix_rfl

theorem cancelAt_receive (h : Transport.receive s = (reception, s')) :
    s'.cancelAt = s.cancelAt := by
  obtain ⟨_, _, rfl⟩ := receive_eq h
  rfl

theorem unread_receive (h : Transport.receive s = (reception, s')) :
    s.unread = [reception].filter Reception.isArrival ++ s'.unread := by
  cases (receive_of_wait rfl).symm.trans h
  obtain ⟨due, arrival, hnext, hwait⟩ | ⟨hconsumes, harrival⟩ :=
    Wait.of_cases s.now s.deadline s.cancelAt s.next?
  · obtain ⟨c, rest, hqueue, -, -, rfl⟩ := next?_eq_some hnext
    simp [hwait, unread, hqueue, c.arrival.isArrival_reception]
  · simp [unread, hconsumes, harrival]

theorem listens_eq (h : Listens x accept s heard verdict s') :
    ∃ now queue, s' = { s with
      now, queue, journal := s.journal.followedBy (noted heard) } := by
  induction h with
  | ends hreceive _ _ =>
    obtain ⟨now, queue, rfl⟩ := receive_eq hreceive
    exact ⟨now, queue, rfl⟩
  | ignores hreceive _ _ ih =>
    obtain ⟨now₁, queue₁, rfl⟩ := receive_eq hreceive
    obtain ⟨now, queue, rfl⟩ := ih
    exact ⟨now, queue, by rw [Journal.followedBy_followedBy, ← noted_append]; rfl⟩

theorem unread_listens (h : Listens x accept s heard verdict s') :
    s.unread = (heard.map Prod.snd).filter Reception.isArrival ++ s'.unread := by
  induction h with
  | ends hreceive _ _ => exact unread_receive hreceive
  | ignores hreceive _ _ ih =>
    rw [unread_receive hreceive, ih, ← List.append_assoc, ← List.filter_append]
    rfl

end Receive

section Launch

theorem sendsBeforeFailure_spec (s : Script) (copies : Nat) :
    s.sendsBeforeFailure copies ≤ copies ∧
      (∀ i < s.sendsBeforeFailure copies, s.sends + i ∉ s.failing) ∧
      (s.sendsBeforeFailure copies < copies →
        s.sends + s.sendsBeforeFailure copies ∈ s.failing) := by
  unfold sendsBeforeFailure
  generalize s.failing = failing
  induction failing generalizing copies with
  | nil => exact ⟨le_rfl, fun _ _ => List.not_mem_nil, fun h => absurd h (lt_irrefl _)⟩
  | cons place failing ih =>
    rw [List.foldl_cons]
    obtain ⟨hle, hgood, hfirst⟩ :=
      ih (if s.sends ≤ place then min copies (place - s.sends) else copies)
    generalize List.foldl _ _ failing = good at hle hgood hfirst ⊢
    simp only [List.mem_cons, not_or]
    refine ⟨by lia, fun i hi => ⟨by lia, hgood i hi⟩, fun hlt => ?_⟩
    by_cases hfurther : good < if s.sends ≤ place then min copies (place - s.sends) else copies
    · exact .inr (hfirst hfurther)
    · exact .inl (by lia)

theorem send_eq (s : Script) (target : SocketAddress) (datagram : Bytes) (copies : Nat) :
    ∃ sends journal, ∀ queue cancelAt,
      { s with queue, cancelAt }.send target datagram copies =
        { s with queue, cancelAt, sends, journal } := by
  let good := s.sendsBeforeFailure copies
  let sent := s.journal.noteSent s.now ⟨target, datagram, false⟩ good
  by_cases hfails : good < copies
  · exact ⟨s.sends + good + 1, sent.noteSent s.now ⟨target, datagram, true⟩ 1,
      fun _ _ => if_pos hfails⟩
  · exact ⟨s.sends + good, sent, fun _ _ => if_neg hfails⟩

theorem launch_eq (x : Inquiry) (s : Script) :
    x.launch s = { s with
      deadline := x.deadline s.now
      sends := s.sends + (Attempt.ofRound ⟨x, s, []⟩).tries
      journal := s.journal.followedBy
        ((Attempt.ofRound ⟨x, s, []⟩).entries x.pacing x.target x.request) } := by
  let good := s.sendsBeforeFailure x.burst
  let opened := (s.journal.note s.now (.readUntil (x.deadline s.now - s.now))).note s.now
    (.writeUntil (s.now + x.pacing.writeBudget - s.now))
  let sent := opened.noteSent s.now ⟨x.target, x.request, false⟩ good
  have hlaunch : x.launch s = if good < x.burst then
      { s with
        deadline := x.deadline s.now
        sends := s.sends + good + 1
        journal := sent.noteSent s.now ⟨x.target, x.request, true⟩ 1 }
      else { s with deadline := x.deadline s.now, sends := s.sends + good, journal := sent } := rfl
  have hopened : opened = s.journal.followedBy [(s.now, .readUntil (min x.window (x.left s.now))),
      (s.now, .writeUntil x.pacing.writeBudget)] := by
    simp [opened, Journal.note_eq, Inquiry.deadline]
  have hsent : sent = opened.followedBy
      (if good = 0 then [] else [(s.now, .sent ⟨x.target, x.request, false⟩ good)]) :=
    Journal.noteSent_eq (by simp [opened, Journal.note]) _ _
  have hfresh : ∀ time n, (time, .sent ⟨x.target, x.request, true⟩ n) ∉ sent.events.head? := by
    intro time n
    by_cases hgood : good = 0 <;> simp [hsent, hopened, Journal.followedBy, hgood]
  rw [hlaunch, Journal.noteSent_eq hfresh, hsent, hopened]
  by_cases hfailed : good < x.burst
  · have hattempt : Attempt.ofRound ⟨x, s, []⟩ =
        ⟨s.now, min x.window (x.left s.now), good, true, []⟩ := by
      simp [Attempt.ofRound, Round.window, Transport.now, good, hfailed]
    rw [if_pos hfailed, hattempt]
    simp [Attempt.entries, Attempt.tries, noted, Nat.add_assoc]
  · have hattempt : Attempt.ofRound ⟨x, s, []⟩ =
        ⟨s.now, min x.window (x.left s.now), good, false, []⟩ := by
      simp [Attempt.ofRound, Round.window, Transport.now, good, hfailed]
    rw [if_neg hfailed, hattempt]
    simp [Attempt.entries, Attempt.tries, noted]

end Launch

theorem run_frame {β : Type} {d : Dialogue β} {b : β} {u : Script} (s : Script)
    (hrun : d.run s = some (b, u)) : u.cancelAt = s.cancelAt ∧ u.queue <:+ s.queue := by
  induction d generalizing s with
  | finish =>
    cases hrun
    exact ⟨rfl, List.suffix_rfl⟩
  | stall => cases hrun
  | clock next ih => exact ih _ s hrun
  | readUntil deadline next ih => exact ih (Transport.readUntil deadline s) hrun
  | writeUntil deadline next ih => exact ih (Transport.writeUntil deadline s) hrun
  | send target datagram copies next ih =>
    obtain ⟨sends, journal, hsend⟩ := s.send_eq target datagram copies
    change next.run (s.send target datagram copies) = _ at hrun
    rw [hsend s.queue s.cancelAt] at hrun
    exact ih { s with sends, journal } hrun
  | receive next ih =>
    rcases hreceive : Transport.receive s with ⟨reception, s₁⟩
    rw [Dialogue.run, hreceive] at hrun
    obtain ⟨hcancelAt, hqueue⟩ := ih _ s₁ hrun
    exact ⟨hcancelAt.trans (cancelAt_receive hreceive), hqueue.trans (queue_receive hreceive)⟩

end Script
end ServerDiscovery.Simulation
