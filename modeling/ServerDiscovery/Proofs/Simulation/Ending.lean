import Mathlib.Data.List.Basic
import ServerDiscovery.Proofs.Simulation.Script

/-! An inquiry over a script comes to an end: either the cues run out or the budget does. But that
holds only of an inquiry that waits at all. One whose first window is empty doubles nothing, uses up
nothing of its budget, and asks for ever. -/

namespace ServerDiscovery.Simulation.Script

open Client Inquiry

variable {α : Type} {s s' : Script} {x : Inquiry} {accept : Accept α}
  {heard : List (Time × Reception)} {verdict : Verdict α} {result : Except Failure α}

theorem length_unread (s : Script) : s.unread.length = s.queue.length := List.length_map _

theorem length_queue {receptions : List Reception}
    (h : s.unread = receptions.filter Reception.isArrival ++ s'.unread) :
    s.queue.length = receptions.countP Reception.isArrival + s'.queue.length := by
  have hlength := congrArg List.length h
  rwa [List.length_append, ← List.countP_eq_length_filter, length_unread, length_unread] at hlength

theorem exists_listens (x : Inquiry) (accept : Accept α) (s : Script) :
    ∃ heard verdict s', Listens x accept s heard verdict s' := by
  induction hlen : s.queue.length using Nat.strong_induction_on generalizing s with
  | _ n ih =>
    rcases hreceive : Transport.receive s with ⟨reception, s₁⟩
    by_cases hjudge : x.judge accept (Transport.now s₁) reception = .ignore
    · have hqueue := length_queue (unread_receive hreceive)
      rw [List.countP_singleton, if_pos (isArrival_of_ignored hjudge)] at hqueue
      obtain ⟨heard, verdict, s', hlistens⟩ := ih s₁.queue.length (by lia) s₁ rfl
      exact ⟨_, _, _, .ignores hreceive hjudge hlistens⟩
    · exact ⟨_, _, _, .ends hreceive rfl hjudge⟩

theorem queue_launch (x : Inquiry) (s : Script) : (x.launch s).queue = s.queue := by
  rw [launch_eq]

theorem exists_rounds (accept : Accept α) (s : Script) (hstarted : x.started ≤ s.now)
    (hwindow : x.left s.now ≠ 0 → 0 < x.window) :
    ∃ rounds result s', Rounds accept x s rounds result s' := by
  induction hmeasure : s.queue.length + x.left s.now using Nat.strong_induction_on
    generalizing x s with
  | _ n ih =>
    by_cases hleft : x.left s.now = 0
    · exact ⟨_, _, _, .spent hleft⟩
    obtain ⟨heard, verdict, s₁, hlistens⟩ := exists_listens x accept (x.launch s)
    cases verdict with
    | ignore => exact absurd rfl hlistens.ne_ignore
    | settle result => exact ⟨_, _, _, .settled hleft hlistens⟩
    | reject =>
      obtain ⟨hle, -, hheard⟩ := hlistens.launched
      have hqueue := length_queue (unread_listens hlistens)
      rw [queue_launch, List.countP_map] at hqueue
      have hdrop : x.left s₁.now ≤ x.left s.now := x.left_le_left hle
      have hless : s₁.queue.length + x.left s₁.now < n := by
        rcases hlistens.cutShort_or_timedOut with hcut | ⟨-, hmem⟩
        · have hcue : 0 < heard.countP (Reception.isArrival ∘ Prod.snd) := hlistens.countP_pos hcut
          lia
        · have hend : s₁.now = x.deadline s.now := (hheard _ hmem).2.2 rfl
          have hspent := left_deadline_lt hstarted hleft (hwindow hleft)
          rw [← hend] at hspent
          lia
      obtain ⟨rounds, result, s', hrounds⟩ := ih _ hless (x := x.backOff s₁.now) s₁
        (hstarted.trans hle) (backOff_window_pos (hwindow hleft)) rfl
      exact ⟨_, _, _, .failed hleft hlistens hrounds⟩

/-- An inquiry that has time left but waits for none of it, over a script with nothing in it. -/
structure Stuck (x : Inquiry) (s : Script) : Prop where
  queue : s.queue = []
  cancelAt : s.cancelAt = none
  window : x.window = 0
  left : x.left s.now ≠ 0

theorem Stuck.round (h : Stuck x s) (hlistens : Listens x accept (x.launch s) heard verdict s') :
    verdict = .reject ∧ Stuck (x.backOff s'.now) s' := by
  have hlaunch := launch_eq x s
  have hwait : Wait.of (x.launch s).now (x.launch s).deadline (x.launch s).cancelAt
      (x.launch s).next? = ⟨.timedOut, s.now, false⟩ := by
    simp [hlaunch, next?, h.queue, h.cancelAt, h.window, Inquiry.deadline, Wait.of]
  have hreceive : Transport.receive (x.launch s) = (.timedOut, { x.launch s with
      journal := (x.launch s).journal.followedBy [(s.now, .timedOut)] }) := by
    simp only [Transport.receive, receive, hwait]
    rw [hlaunch]
    rfl
  cases hlistens with
  | ends hreceive' hjudge _ =>
    cases hreceive.symm.trans hreceive'
    refine ⟨hjudge.symm, ?_⟩
    rw [hlaunch]
    exact ⟨h.queue, h.cancelAt, by simp [Inquiry.backOff, h.window], h.left⟩
  | ignores hreceive' hjudge _ =>
    cases hreceive.symm.trans hreceive'
    cases hjudge

theorem Stuck.not_rounds {rounds : List (Round Script)} (h : Stuck x s) :
    ¬ Rounds accept x s rounds result s' := by
  intro hrounds
  induction hrounds with
  | spent hspent => exact h.left hspent
  | settled _ hlistens => cases (h.round hlistens).1
  | failed _ hlistens _ ih => exact ih (h.round hlistens).2

theorem not_run_of_firstWindow_eq_zero {pacing : Pacing} (hwindow : pacing.firstWindow = 0)
    (hbudget : pacing.budget ≠ 0) (target : SocketAddress) (request : Bytes)
    (accept : Accept α) : ¬ ∃ patience result s',
      (Client.inquire pacing target request accept patience).run (Script.new [] [] none) =
        some (result, s') := by
  rintro ⟨patience, result, s', hrun⟩
  have hstuck : Stuck (.start target request pacing 0) (.new [] [] none) :=
    ⟨rfl, rfl, hwindow, hbudget⟩
  obtain ⟨rounds, hrounds⟩ := run_inquire_iff.mp ⟨patience, hrun⟩
  exact hstuck.not_rounds hrounds

/-- An inquiry ends over every script just when it waits at all, or has no time to begin with. -/
theorem inquire_ends_iff (α : Type) (pacing : Pacing) :
    (∀ (s : Script) (target : SocketAddress) (request : Bytes) (accept : Accept α),
      ∃ patience result s',
        (Client.inquire pacing target request accept patience).run s = some (result, s')) ↔
      0 < pacing.firstWindow ∨ pacing.budget = 0 := by
  constructor
  · intro hends
    by_contra hno
    obtain ⟨hwindow, hbudget⟩ := not_or.mp hno
    exact not_run_of_firstWindow_eq_zero (Nat.eq_zero_of_not_pos hwindow) hbudget
      (.v4 ⟨10, 0, 0, 1⟩ 8303) [] (fun _ _ _ => .error .timeout) (hends _ _ _ _)
  · intro h s target request accept
    have hwindow : left (.start target request pacing s.now) s.now ≠ 0 →
        0 < (Inquiry.start target request pacing s.now).window := by
      intro hleft
      refine h.resolve_right fun hbudget => hleft ?_
      simp [left, Inquiry.start, hbudget]
    obtain ⟨rounds, result, s', hrounds⟩ := exists_rounds accept s le_rfl hwindow
    obtain ⟨patience, hrun⟩ := run_inquire_iff.mpr ⟨rounds, hrounds⟩
    exact ⟨patience, result, s', hrun⟩

theorem empty_window_never_ends :
    ¬ ∃ patience result s', (Client.inquire (.uniform 100 0) (.v4 ⟨10, 0, 0, 1⟩ 8303) [7]
      (fun _ payload _ => .ok payload) patience).run (Script.new [] [] none) =
        some (result, s') :=
  not_run_of_firstWindow_eq_zero rfl (by decide) _ _ _

end ServerDiscovery.Simulation.Script
