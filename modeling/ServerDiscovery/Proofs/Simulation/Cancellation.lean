import Mathlib.Data.List.Basic
import Mathlib.Tactic.SplitIfs
import ServerDiscovery.Proofs.Client.Concluding
import ServerDiscovery.Proofs.Client.Inquiry
import ServerDiscovery.Proofs.Client.Timeliness
import ServerDiscovery.Proofs.Simulation.Ending

/-! Cancellation cuts an inquiry short and changes nothing else. While the inquiry goes on it waits,
so that it is over at the time of the cancellation, and all that it has done until then it would
have done anyway. Only an inquiry that never waits never hears of it. -/

namespace ServerDiscovery

open Client

namespace Client.Dialogue

variable {α : Type}

def Quits : Dialogue (Except Failure α) → Prop
  | finish r => r = .error .cancelled
  | clock next => ∀ now, (next now).Quits
  | stall | readUntil _ _ | writeUntil _ _ | send _ _ _ _ | receive _ => False

def Heeds : Dialogue (Except Failure α) → Prop
  | finish _ | stall => True
  | clock next => ∀ now, (next now).Heeds
  | readUntil _ next | writeUntil _ next | send _ _ _ next => next.Heeds
  | receive next => (next .cancelled).Quits ∧ ∀ r, (next r).Heeds

theorem Quits.run {σ : Type} [Transport σ] {d : Dialogue (Except Failure α)} (h : d.Quits) (k : σ) :
    d.run k = some (.error .cancelled, k) := by
  induction d with
  | finish r =>
    obtain rfl : r = _ := h
    rfl
  | clock next ih => exact ih _ (h _)
  | stall | readUntil _ _ _ | writeUntil _ _ _ | send _ _ _ _ _ | receive _ _ => exact h.elim

end Client.Dialogue

namespace Client.Inquiry

variable {α : Type}

theorem heeds_attempt (x : Inquiry) {wait : Dialogue (Except Failure α)} (h : wait.Heeds) :
    (x.attempt wait).Heeds := by
  intro now
  dsimp only
  split_ifs
  · exact trivial
  · exact h

theorem heeds_await (accept : Accept α) (patience : Nat) (x : Inquiry) :
    (await accept patience x).Heeds := by
  induction patience generalizing x with
  | zero => exact trivial
  | succ patience ih =>
    refine ⟨fun now => rfl, fun r now => ?_⟩
    dsimp only
    cases x.judge accept now r with
    | ignore => exact ih x
    | reject => exact heeds_attempt _ (ih _)
    | settle result => exact trivial

theorem heeds_inquire (pacing : Pacing) (target : SocketAddress) (request : Bytes)
    (accept : Accept α) (patience : Nat) :
    (inquire pacing target request accept patience).Heeds :=
  fun _ => heeds_attempt _ (heeds_await _ _ _)

end Client.Inquiry

namespace Simulation

namespace Journal

variable {σ : Type} {now c : Time} {j j' j'' : Journal σ}

def upTo (c : Time) (j : Journal σ) : Journal σ := ⟨j.events.filter fun entry => entry.1 ≤ c⟩

theorem upTo_eq_self_iff : j.upTo c = j ↔ ∀ entry ∈ j.events, entry.1 ≤ c := by
  obtain ⟨events⟩ := j
  simp [upTo]

/-- What was noted at a time, after all that was noted before. -/
structure Grows (now : Time) (j j' : Journal σ) : Prop where
  past : ∀ c < now, j'.upTo c = j.upTo c
  present : ∀ c, now ≤ c → j.upTo c = j → j'.upTo c = j'

theorem Grows.refl (now : Time) (j : Journal σ) : Grows now j j := ⟨fun _ _ => rfl, fun _ _ h => h⟩

theorem Grows.trans (h : Grows now j j') (h' : Grows now j' j'') : Grows now j j'' where
  past c hc := (h'.past c hc).trans (h.past c hc)
  present c hc hj := h'.present c hc (h.present c hc hj)

theorem grows_note (now : Time) (j : Journal σ) (e : Event σ) : Grows now j (j.note now e) where
  past c hc := by simp [upTo, note, Nat.not_le_of_lt hc]
  present c hc hj := by
    rw [upTo_eq_self_iff] at hj ⊢
    exact List.forall_mem_cons.mpr ⟨hc, hj⟩

theorem grows_noteSent [DecidableEq σ] (now : Time) (j : Journal σ) (what : σ) (copies : Nat) :
    Grows now j (j.noteSent now what copies) := by
  unfold noteSent
  split_ifs
  · exact .refl now j
  · split
    · rename_i time before n earlier hevents
      split_ifs with hsame
      · -- Copies are added to those of the same moment, so nothing of the past is lost.
        obtain ⟨rfl, rfl⟩ := hsame
        refine ⟨fun c hc => ?_, fun c hc hj => ?_⟩
        · simp [upTo, hevents, Nat.not_le_of_lt hc]
        · rw [upTo_eq_self_iff, hevents, List.forall_mem_cons] at hj
          exact upTo_eq_self_iff.mpr (List.forall_mem_cons.mpr ⟨hc, hj.2⟩)
      · exact grows_note now j _
    · exact grows_note now j _

end Journal

section Wait

variable {now deadline c : Time} {next : Option (Time × Arrival)}

theorem Wait.of_cancelled_later (h : (Wait.of now deadline none next).ends < c) :
    Wait.of now deadline (some c) next = Wait.of now deadline none next := by
  have hnow := (Wait.fits_of_uncancelled now deadline next).1
  rw [Wait.of_some, if_neg (Nat.not_le_of_lt (Nat.lt_of_le_of_lt hnow h)),
    if_neg (Nat.not_lt_of_lt h)]

theorem Wait.of_cancelled_meanwhile (hnow : now ≤ c)
    (h : c < (Wait.of now deadline none next).ends) :
    Wait.of now deadline (some c) next = ⟨.cancelled, c, false⟩ := by
  rw [Wait.of_some, if_pos h]
  split_ifs with hc
  · rw [Nat.le_antisymm hnow hc]
  · rfl

theorem Wait.le_ends_of_cancelled {cancelAt : Option Time}
    (h : (Wait.of now deadline cancelAt next).reception = .cancelled) :
    ∃ c, cancelAt = some c ∧ c ≤ (Wait.of now deadline cancelAt next).ends := by
  cases cancelAt with
  | none => exact absurd h (Wait.reception_ne_cancelled now deadline next)
  | some c =>
    refine ⟨c, rfl, ?_⟩
    rw [Wait.of_some] at h ⊢
    split_ifs at h ⊢ with hnow hends
    · exact hnow
    · exact Nat.le_refl c
    · exact absurd h (Wait.reception_ne_cancelled now deadline next)

end Wait

namespace Script

variable {α : Type} {s s₁ u : Script} {c : Time} {reception : Reception}

/-- The script with a time at which whatever runs is cancelled. -/
def cancelledAt (s : Script) (c : Time) : Script := { s with cancelAt := some c }

theorem receive_cancelledAt_of_lt (hs : s.cancelAt = none)
    (hreceive : Transport.receive s = (reception, s₁)) (hlt : s₁.now < c) :
    Transport.receive (s.cancelledAt c) = (reception, s₁.cancelledAt c) := by
  cases (receive_of_wait rfl).symm.trans hreceive
  rw [hs] at hlt ⊢
  exact receive_of_wait (Wait.of_cancelled_later hlt)

theorem receive_cancelledAt_of_gt (hs : s.cancelAt = none) (hnow : s.now ≤ c)
    (hreceive : Transport.receive s = (reception, s₁)) (hgt : c < s₁.now) :
    Transport.receive (s.cancelledAt c) = (.cancelled, { s.cancelledAt c with now := c }) := by
  cases (receive_of_wait rfl).symm.trans hreceive
  rw [hs] at hgt
  have hwait : Wait.of (s.cancelledAt c).now (s.cancelledAt c).deadline (s.cancelledAt c).cancelAt
      (s.cancelledAt c).next? = ⟨.cancelled, c, false⟩ := Wait.of_cancelled_meanwhile hnow hgt
  exact receive_of_wait hwait

theorem grows_send (s : Script) (target : SocketAddress) (datagram : Bytes) (copies : Nat) :
    Journal.Grows s.now s.journal (s.send target datagram copies).journal := by
  have hgrows := Journal.grows_noteSent s.now s.journal ⟨target, datagram, false⟩
    (s.sendsBeforeFailure copies)
  simp only [send]
  split_ifs
  · exact hgrows.trans (Journal.grows_noteSent s.now _ (Shot.mk target datagram true) 1)
  · exact hgrows

theorem grows_receive (hreceive : Transport.receive s = (reception, s₁)) :
    Journal.Grows s₁.now s.journal s₁.journal := by
  obtain ⟨now, queue, rfl⟩ := receive_eq hreceive
  cases reception with
  | datagram | timedOut | failed => exact Journal.grows_note now s.journal _
  | cancelled => exact .refl now s.journal

theorem now_le_of_run {d : Dialogue α} {a : α} (h : d.run s = some (a, u)) : s.now ≤ u.now := by
  obtain ⟨os, hcourse⟩ := Dialogue.course_of_run h
  exact hcourse.now_le

theorem run_cancelledAt_of_lt {d : Dialogue α} {a : α} (s : Script) (hs : s.cancelAt = none)
    (hrun : d.run s = some (a, u)) (hlt : u.now < c) :
    d.run (s.cancelledAt c) = some (a, u.cancelledAt c) := by
  induction d generalizing s with
  | finish b =>
    cases hrun
    rfl
  | stall => cases hrun
  | clock next ih => exact ih _ s hs hrun
  | readUntil deadline next ih => exact ih (Transport.readUntil deadline s) hs hrun
  | writeUntil deadline next ih => exact ih (Transport.writeUntil deadline s) hs hrun
  | send target datagram copies next ih =>
    obtain ⟨sends, journal, hsend⟩ := s.send_eq target datagram copies
    change next.run (s.send target datagram copies) = _ at hrun
    change next.run ((s.cancelledAt c).send target datagram copies) = _
    rw [hsend s.queue s.cancelAt] at hrun
    rw [cancelledAt, hsend]
    exact ih { s with sends, journal } hs hrun
  | receive next ih =>
    rcases hreceive : Transport.receive s with ⟨reception, s₁⟩
    rw [Dialogue.run, hreceive] at hrun
    have hbefore : s₁.now < c := Nat.lt_of_le_of_lt (now_le_of_run hrun) hlt
    rw [Dialogue.run, receive_cancelledAt_of_lt hs hreceive hbefore]
    exact ih _ s₁ ((cancelAt_receive hreceive).trans hs) hrun

theorem upTo_journal_of_run {d : Dialogue α} {a : α} (s : Script) (hrun : d.run s = some (a, u))
    (hlt : c < s.now) : u.journal.upTo c = s.journal.upTo c := by
  induction d generalizing s with
  | finish b =>
    cases hrun
    rfl
  | stall => cases hrun
  | clock next ih => exact ih _ s hrun hlt
  | readUntil deadline next ih =>
    have hgrows := Journal.grows_note s.now s.journal (.readUntil (deadline - s.now))
    exact (ih (Transport.readUntil deadline s) hrun hlt).trans (hgrows.past c hlt)
  | writeUntil deadline next ih =>
    have hgrows := Journal.grows_note s.now s.journal (.writeUntil (deadline - s.now))
    exact (ih (Transport.writeUntil deadline s) hrun hlt).trans (hgrows.past c hlt)
  | send target datagram copies next ih =>
    obtain ⟨sends, journal, hsend⟩ := s.send_eq target datagram copies
    have hgrows := s.grows_send target datagram copies
    change next.run (s.send target datagram copies) = _ at hrun
    rw [hsend s.queue s.cancelAt] at hrun hgrows
    exact (ih { s with sends, journal } hrun hlt).trans (hgrows.past c hlt)
  | receive next ih =>
    rcases hreceive : Transport.receive s with ⟨reception, s₁⟩
    have hlater : s.now ≤ s₁.now := by
      have hle := LawfulTransport.le_now_receive s
      rwa [hreceive] at hle
    rw [Dialogue.run, hreceive] at hrun
    have hafter := Nat.lt_of_lt_of_le hlt hlater
    exact (ih _ s₁ hrun hafter).trans ((grows_receive hreceive).past c hafter)

theorem run_cancelledAt_of_gt {d : Dialogue (Except Failure α)} {os : List Occurrence}
    {result : Except Failure α} (hd : d.Heeds) (s : Script) (hs : s.cancelAt = none)
    (hnow : s.now ≤ c) (hjournal : s.journal.upTo c = s.journal)
    (hwatch : d.watch s = (os, some (result, u)))
    (hquiet : ∀ t x, .received t x ∈ os → t ≠ c) (hgt : c < u.now) :
    ∃ v, d.run (s.cancelledAt c) = some (.error .cancelled, v) ∧ v.now = c ∧
      v.journal = u.journal.upTo c := by
  induction d generalizing s os with
  | finish b =>
    cases hwatch
    exact absurd hnow (Nat.not_le_of_lt hgt)
  | stall => cases hwatch
  | clock next ih => exact ih _ (hd _) s hs hnow hjournal hwatch hquiet
  | readUntil deadline next ih =>
    have hgrows := Journal.grows_note s.now s.journal (.readUntil (deadline - s.now))
    exact ih hd (Transport.readUntil deadline s) hs hnow (hgrows.present c hnow hjournal) hwatch
      hquiet
  | writeUntil deadline next ih =>
    have hgrows := Journal.grows_note s.now s.journal (.writeUntil (deadline - s.now))
    exact ih hd (Transport.writeUntil deadline s) hs hnow (hgrows.present c hnow hjournal) hwatch
      hquiet
  | send target datagram copies next ih =>
    obtain ⟨sends, journal, hsend⟩ := s.send_eq target datagram copies
    have hgrows := s.grows_send target datagram copies
    rcases hnext : next.watch (s.send target datagram copies) with ⟨os', end?⟩
    change (_ :: (next.watch (s.send target datagram copies)).1,
      (next.watch (s.send target datagram copies)).2) = _ at hwatch
    rw [hnext] at hwatch
    cases hwatch
    rw [hsend s.queue s.cancelAt] at hnext hgrows
    obtain ⟨v, hrun, hv⟩ := ih hd { s with sends, journal } hs hnow
      (hgrows.present c hnow hjournal) hnext fun t x hx => hquiet t x (List.mem_cons_of_mem _ hx)
    refine ⟨v, ?_, hv⟩
    change next.run ((s.cancelledAt c).send target datagram copies) = _
    rw [cancelledAt, hsend]
    exact hrun
  | receive next ih =>
    rcases hreceive : Transport.receive s with ⟨reception, s₁⟩
    rcases hnext : (next reception).watch s₁ with ⟨os', end?⟩
    rw [Dialogue.watch, hreceive] at hwatch
    simp only [hnext, Prod.mk.injEq] at hwatch
    obtain ⟨rfl, rfl⟩ := hwatch
    have hne : s₁.now ≠ c := hquiet _ _ List.mem_cons_self
    rcases Nat.lt_or_gt_of_ne hne with hbefore | hafter
    · have hdated := (grows_receive hreceive).present c (Nat.le_of_lt hbefore) hjournal
      obtain ⟨v, hrun, hv⟩ := ih _ (hd.2 _) s₁ ((cancelAt_receive hreceive).trans hs)
        (Nat.le_of_lt hbefore) hdated hnext fun t x hx => hquiet t x (List.mem_cons_of_mem _ hx)
      refine ⟨v, ?_, hv⟩
      rw [Dialogue.run, receive_cancelledAt_of_lt hs hreceive hbefore]
      exact hrun
    · have hrun : (next reception).run s₁ = some (result, u) := by
        rw [← Dialogue.watch_snd, hnext]
      have hpast := upTo_journal_of_run s₁ hrun hafter
      refine ⟨{ s.cancelledAt c with now := c }, ?_, rfl, ?_⟩
      · rw [Dialogue.run, receive_cancelledAt_of_gt hs hnow hreceive hafter]
        exact hd.1.run _
      · rw [hpast, (grows_receive hreceive).past c hafter, hjournal]
        rfl

theorem le_of_cancelled {d : Dialogue α} {t : Time} (s : Script)
    (h : .received t .cancelled ∈ (d.watch s).1) : ∃ c, s.cancelAt = some c ∧ c ≤ t := by
  induction d generalizing s with
  | finish | stall => cases h
  | clock next ih => exact ih _ s h
  | readUntil deadline next ih => exact ih (Transport.readUntil deadline s) h
  | writeUntil deadline next ih => exact ih (Transport.writeUntil deadline s) h
  | send target datagram copies next ih =>
    obtain ⟨sends, journal, hsend⟩ := s.send_eq target datagram copies
    have hmem : .received t .cancelled ∈ (next.watch (s.send target datagram copies)).1 :=
      (List.mem_cons.mp h).resolve_left nofun
    rw [hsend s.queue s.cancelAt] at hmem
    exact ih { s with sends, journal } hmem
  | receive next ih =>
    rcases hreceive : Transport.receive s with ⟨reception, s₁⟩
    rw [Dialogue.watch, hreceive] at h
    rcases List.mem_cons.mp h with heq | hmem
    · cases (receive_of_wait rfl).symm.trans hreceive
      obtain ⟨rfl, hreception⟩ := Occurrence.received.inj heq
      exact Wait.le_ends_of_cancelled hreception.symm
    · obtain ⟨cancel, hcancel, hle⟩ := ih _ s₁ hmem
      exact ⟨cancel, (cancelAt_receive hreceive).symm.trans hcancel, hle⟩

section Cut

/-- A time at which it receives nothing and does not end. -/
structure Uneventful (d : Nat → Dialogue (Except Failure α)) (s : Script) (c : Time) : Prop where
  received : ∀ patience t x, .received t x ∈ ((d patience).watch s).1 → t ≠ c
  ended : ∀ result u, Dialogue.Concludes d s result u → u.now ≠ c

/-- What becomes of it when it is cancelled at a time. -/
structure Cut (d : Nat → Dialogue (Except Failure α)) (s : Script) (c : Time) : Prop where
  spared : ∀ result u, Dialogue.Concludes d s result u → u.now < c →
    Dialogue.Concludes d (s.cancelledAt c) result (u.cancelledAt c)
  cut : (∀ result u, Dialogue.Concludes d s result u → c ≤ u.now) →
    ∃ v, Dialogue.Concludes d (s.cancelledAt c) (.error .cancelled) v ∧ v.now = c ∧
      ∀ result u, Dialogue.Concludes d s result u → v.journal = u.journal.upTo c

variable {pacing : Pacing} {target : SocketAddress} {request : Bytes} {accept : Accept α}

theorem cut_of_concludes {result : Except Failure α} (hs : s.cancelAt = none) (hnow : s.now ≤ c)
    (hjournal : s.journal.upTo c = s.journal)
    (hquiet : Uneventful (Client.inquire pacing target request accept) s c)
    (hend : Dialogue.Concludes (Client.inquire pacing target request accept) s result u) :
    Cut (Client.inquire pacing target request accept) s c where
  spared result' u' hend' hlt := by
    obtain ⟨enough, hrun⟩ := hend'
    exact concludes_of_run_inquire (run_cancelledAt_of_lt s hs (hrun enough le_rfl) hlt)
  cut hlate := by
    have hgt : c < u.now := lt_of_le_of_ne (hlate _ _ hend) (hquiet.ended _ _ hend).symm
    obtain ⟨enough, hrun⟩ := id hend
    have hwatch : (Client.inquire pacing target request accept enough).watch s =
        (((Client.inquire pacing target request accept enough).watch s).1, some (result, u)) := by
      rw [← hrun enough le_rfl, ← Dialogue.watch_snd]
    obtain ⟨v, hrun', hv, hsame⟩ := run_cancelledAt_of_gt (Inquiry.heeds_inquire ..) s hs hnow
      hjournal hwatch (hquiet.received enough) hgt
    refine ⟨v, concludes_of_run_inquire hrun', hv, fun result' u' hend' => ?_⟩
    obtain ⟨-, rfl⟩ := hend.unique hend'
    exact hsame

section NeverWaits

variable (hwindow : pacing.firstWindow = 0)
include hwindow

theorem received_at_start {patience : Nat} {t : Time} {x : Reception}
    (h : .received t x ∈ ((Client.inquire pacing target request accept patience).watch s).1) :
    t = s.now := by
  obtain ⟨m', hcourse, -⟩ :=
    (Client.inquire pacing target request accept patience).course_watch s
  exact (inquired_of_course hcourse).still hwindow _ h

theorem not_cut (hbudget : pacing.budget ≠ 0) (target : SocketAddress) (request : Bytes)
    (accept : Accept α) (hc : 0 < c) :
    Uneventful (Client.inquire pacing target request accept) (.new [] [] none) c ∧
      ¬ Cut (Client.inquire pacing target request accept) (.new [] [] none) c := by
  have hgoes : ∀ result u,
      ¬ Dialogue.Concludes (Client.inquire pacing target request accept)
        (Script.new [] [] none) result u := by
    rintro result u ⟨enough, hrun⟩
    exact not_run_of_firstWindow_eq_zero hwindow hbudget target request accept
      ⟨enough, result, u, hrun enough le_rfl⟩
  refine ⟨⟨fun patience t x h => ?_, fun result u h => absurd h (hgoes result u)⟩, fun hcut => ?_⟩
  · rw [received_at_start hwindow h]
    exact hc.ne
  · obtain ⟨v, ⟨enough, hrun⟩, -⟩ := hcut.cut fun result u h => absurd h (hgoes result u)
    obtain ⟨m', hcourse, -⟩ := (Client.inquire pacing target request accept enough).course_watch
      ((Script.new [] [] none).cancelledAt c)
    rw [Dialogue.watch_snd, hrun enough le_rfl] at hcourse
    obtain ⟨t, ht⟩ := (timely_of_course hcourse).cancelled rfl
    -- The news is received when the inquiry begins, but it is not to be had before its time.
    obtain ⟨cancel, hcancel, hle⟩ := le_of_cancelled _ ht
    cases hcancel
    rw [received_at_start hwindow ht] at hle
    exact absurd hle (Nat.not_le_of_lt hc)

end NeverWaits

/-- A cancellation cuts an inquiry, and leaves it alone otherwise, just when the inquiry waits at
all or has no time to begin with. -/
theorem inquire_cut_iff (α : Type) (pacing : Pacing) :
    (∀ (s : Script) (target : SocketAddress) (request : Bytes) (accept : Accept α) (c : Time),
      s.cancelAt = none → s.now ≤ c → s.journal.upTo c = s.journal →
      Uneventful (Client.inquire pacing target request accept) s c →
      Cut (Client.inquire pacing target request accept) s c) ↔
      0 < pacing.firstWindow ∨ pacing.budget = 0 := by
  constructor
  · intro hall
    by_contra hno
    obtain ⟨hwindow, hbudget⟩ := not_or.mp hno
    let accept : Accept α := fun _ _ _ => .error .timeout
    obtain ⟨hquiet, hnot⟩ := not_cut (Nat.eq_zero_of_not_pos hwindow) hbudget
      (.v4 ⟨10, 0, 0, 1⟩ 8303) [] accept Nat.one_pos
    exact hnot (hall _ _ _ _ 1 rfl (Nat.zero_le 1) rfl hquiet)
  · intro h s target request accept c hs hnow hjournal hquiet
    have hwindow : Inquiry.left (.start target request pacing s.now) s.now ≠ 0 →
        0 < (Inquiry.start target request pacing s.now).window := by
      intro hleft
      refine h.resolve_right fun hbudget => hleft ?_
      simp [Inquiry.left, Inquiry.start, hbudget]
    obtain ⟨rounds, result, u, hrounds⟩ := exists_rounds accept s le_rfl hwindow
    exact cut_of_concludes hs hnow hjournal hquiet hrounds.concludes

theorem empty_window_never_cut :
    Uneventful (Client.inquire (.uniform 100 0) (.v4 ⟨10, 0, 0, 1⟩ 8303) [114, 101, 113]
        fun _ payload _ => .ok payload) (.new [] [] none) 5 ∧
      ¬ Cut (Client.inquire (.uniform 100 0) (.v4 ⟨10, 0, 0, 1⟩ 8303) [114, 101, 113]
        fun _ payload _ => .ok payload) (.new [] [] none) 5 :=
  not_cut rfl (by decide) _ _ _ (by decide)

end Cut

end Script
end Simulation
end ServerDiscovery
