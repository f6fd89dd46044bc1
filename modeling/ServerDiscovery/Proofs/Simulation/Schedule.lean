import Mathlib.Algebra.Order.BigOperators.Group.List
import Mathlib.Algebra.Order.Group.Nat
import Mathlib.Order.Bounds.Basic
import ServerDiscovery.Proofs.Simulation.Ending

/-! The attempts of an inquiry over a script, one after the other: when each begins, how long it
waits, which of its copies go out, and how many attempts there are. -/

namespace ServerDiscovery.Simulation

open Client Inquiry

namespace Attempt

def ended (a : Attempt) : Time := (a.heard.getLast?.map Prod.fst).getD a.start

def allEnded (now : Time) (attempts : List Attempt) : Time := attempts.foldl (fun _ a => a.ended) now

def allTries (attempts : List Attempt) : Nat := (attempts.map tries).sum

def cutShort {α : Type} (accept : Accept α) (target : SocketAddress) (attempts : List Attempt) :
    Nat :=
  attempts.countP fun a => isCutShort accept target a.heard

structure Planned (pacing : Pacing) (target : SocketAddress) (fails : Nat → Prop)
    (started : Time) (failures : Nat) (now : Time) (first : Nat) (a : Attempt) : Prop where
  start_eq : a.start = now
  window_eq : a.window =
    min (pacing.firstWindow * 2 ^ failures) (pacing.budget - (now - started))
  sent_le : a.sent ≤ min (2 ^ failures) (2 ^ 64 - 1)
  failed_iff : a.failed = true ↔ a.sent < min (2 ^ failures) (2 ^ 64 - 1)
  sends : ∀ i < a.sent, ¬ fails (first + i)
  fails : a.failed = true → fails (first + a.sent)
  waits : ∃ before time reception, a.heard = before ++ [(time, reception)] ∧
    (∀ p ∈ before, p.2.isForeign (.ofSocket target) = true) ∧
      reception.isForeign (.ofSocket target) = false ∧ now ≤ time ∧ time ≤ now + a.window ∧
        (reception = .timedOut → time = now + a.window)

theorem Planned.congr {pacing : Pacing} {target : SocketAddress} {fails fails' : Nat → Prop}
    {started now : Time} {failures first : Nat} {a : Attempt}
    (h : Planned pacing target fails started failures now first a)
    (hfails : ∀ i < first + maxBurst, fails i ↔ fails' i) :
    Planned pacing target fails' started failures now first a where
  start_eq := h.start_eq
  window_eq := h.window_eq
  sent_le := h.sent_le
  failed_iff := h.failed_iff
  sends i hi := by
    have hsent : a.sent ≤ maxBurst := h.sent_le.trans (min_le_right _ _)
    rw [← hfails _ (Nat.add_lt_add_left (hi.trans_le hsent) _)]
    exact h.sends i hi
  fails hfailed := by
    have hsent : a.sent < maxBurst := (h.failed_iff.mp hfailed).trans_le (min_le_right _ _)
    rw [← hfails _ (Nat.add_lt_add_left hsent _)]
    exact h.fails hfailed
  waits := h.waits

end Attempt

namespace Script

open Attempt

variable {α : Type} {s s₁ s' : Script} {x : Inquiry} {accept : Accept α} {pacing : Pacing}
  {target : SocketAddress} {request : Bytes} {heard : List (Time × Reception)}
  {verdict : Verdict α} {result : Except Failure α} {rounds : List (Round Script)}

/-- What attempts leave behind of a script. -/
structure Recorded (pacing : Pacing) (target : SocketAddress) (request : Bytes) (s : Script)
    (attempts : List Attempt) (s' : Script) : Prop where
  now : s'.now = allEnded s.now attempts
  sends : s'.sends = s.sends + allTries attempts
  unread : s.unread =
    ((attempts.flatMap Attempt.heard).map Prod.snd).filter Reception.isArrival ++ s'.unread
  journal : s'.journal.toList =
    s.journal.toList ++ attempts.flatMap (Attempt.entries pacing target request)
  failing : s'.failing = s.failing
  cancelAt : s'.cancelAt = s.cancelAt

namespace Recorded

theorem nil (s : Script) : Recorded pacing target request s [] s where
  now := rfl
  sends := rfl
  unread := rfl
  journal := (List.append_nil _).symm
  failing := rfl
  cancelAt := rfl

theorem append {attempts attempts' : List Attempt}
    (h : Recorded pacing target request s attempts s₁)
    (h' : Recorded pacing target request s₁ attempts' s') :
    Recorded pacing target request s (attempts ++ attempts') s' where
  now := by rw [h'.now, h.now, allEnded, allEnded, allEnded, List.foldl_append]
  sends := by
    rw [h'.sends, h.sends, Nat.add_assoc, allTries, allTries, allTries, List.map_append,
      List.sum_append]
  unread := by
    rw [h.unread, h'.unread, List.flatMap_append, List.map_append, List.filter_append,
      List.append_assoc]
  journal := by rw [h'.journal, h.journal, List.flatMap_append, List.append_assoc]
  failing := h'.failing.trans h.failing
  cancelAt := h'.cancelAt.trans h.cancelAt

end Recorded

theorem recorded_round (h : Listens x accept (x.launch s) heard verdict s') :
    Recorded x.pacing x.target x.request s [.ofRound ⟨x, s, heard⟩] s' := by
  obtain ⟨before, reception, hheard, -, -⟩ := h.exists_last
  have hunread : s.unread = _ := congrArg _ (queue_launch x s).symm |>.trans (unread_listens h)
  obtain ⟨now, queue, rfl⟩ := listens_eq h
  have hentries := entries_eq_append x.pacing x.target x.request (.ofRound ⟨x, s, heard⟩)
  rw [launch_eq] at hunread ⊢
  refine ⟨?_, rfl, ?_, ?_, rfl, rfl⟩
  · simp [allEnded, Attempt.ended, Attempt.ofRound, hheard, Transport.now]
  · simpa [Attempt.ofRound] using hunread
  · rw [Journal.toList_followedBy, Journal.toList_followedBy, List.append_assoc,
      List.flatMap_singleton, hentries]
    rfl

theorem recorded_take (h : Rounds accept x s rounds result s') {i : Nat} {r : Round Script}
    (hr : rounds[i]? = some r) :
    Recorded x.pacing x.target x.request s ((rounds.take i).map .ofRound) r.opening := by
  induction h generalizing i with
  | spent => cases hr
  | settled _ _ =>
    cases i with
    | zero => cases hr; exact .nil _
    | succ i => cases hr
  | failed _ hlistens _ ih =>
    cases i with
    | zero => cases hr; exact .nil _
    | succ i => exact (recorded_round hlistens).append (ih hr)

theorem recorded_rounds (h : Rounds accept x s rounds result s') :
    Recorded x.pacing x.target x.request s (rounds.map .ofRound) s' := by
  induction h with
  | spent => exact .nil _
  | settled _ hlistens => exact recorded_round hlistens
  | failed _ hlistens _ ih => exact (recorded_round hlistens).append ih

theorem tries_ofRound_le (r : Round Script) : (Attempt.ofRound r).tries ≤ r.inquiry.burst := by
  have hsent := (r.opening.sendsBeforeFailure_spec r.inquiry.burst).1
  by_cases hfailed : r.opening.sendsBeforeFailure r.inquiry.burst < r.inquiry.burst
  · simp only [Attempt.tries, Attempt.ofRound, hfailed, decide_true, Bool.toNat_true]
    exact hfailed
  · simp only [Attempt.tries, Attempt.ofRound, hfailed, decide_false, Bool.toNat_false]
    exact hsent

theorem sent_ofRound {r : Round Script} (h : (Attempt.ofRound r).failed = false) :
    (Attempt.ofRound r).sent = r.inquiry.burst := by
  have hsent := (r.opening.sendsBeforeFailure_spec r.inquiry.burst).1
  exact le_antisymm hsent (Nat.le_of_not_lt (of_decide_eq_false h))

theorem planned_ofRound {r : Round Script} {failures : Nat}
    (hdoubled : Doubled r.inquiry r.opening.now failures)
    (h : Listens r.inquiry accept (r.inquiry.launch r.opening) r.heard verdict s') :
    Planned r.inquiry.pacing r.inquiry.target (· ∈ r.opening.failing) r.inquiry.started failures
      r.opening.now r.opening.sends (.ofRound r) := by
  obtain ⟨hsent, hsends, hfails⟩ := r.opening.sendsBeforeFailure_spec r.inquiry.burst
  obtain ⟨before, reception, hheard, hbefore, hjudge⟩ := h.exists_last
  obtain ⟨hle, hdeadline, htimes⟩ := h.launched
  have hburst : r.inquiry.burst = min (2 ^ failures) (2 ^ 64 - 1) := hdoubled.burst
  refine ⟨rfl, hdoubled.window_eq, hburst ▸ hsent, ?_, hsends, ?_,
    before, s'.now, reception, hheard, ?_, ?_, hle, hdeadline, ?_⟩
  · rw [← hburst]
    exact decide_eq_true_iff
  · intro hfailed
    exact hfails (of_decide_eq_true hfailed)
  · intro p hp
    exact judge_eq_ignore_iff.mp (hbefore p hp)
  · refine Bool.eq_false_iff.mpr fun hforeign => h.ne_ignore ?_
    exact hjudge.symm.trans (judge_eq_ignore_iff.mpr hforeign)
  · intro htimedOut
    exact (htimes (s'.now, reception) (hheard ▸ List.mem_append_right _
      (List.mem_singleton_self _))).2.2 htimedOut

theorem sum_arrivals (h : Rounds accept x s rounds result s') :
    (rounds.map fun r => r.heard.countP fun p => p.2.isArrival).sum + s'.queue.length =
      s.queue.length := by
  have hqueue := length_queue (recorded_rounds h).unread
  rw [List.countP_map, List.countP_flatMap, List.map_map] at hqueue
  exact hqueue.symm

theorem cutShort_ofRound (accept : Accept α) (target : SocketAddress)
    (rounds : List (Round Script)) : cutShort accept target (rounds.map .ofRound) =
      rounds.countP fun r => isCutShort accept target r.heard := List.countP_map

theorem cutShort_le (h : Rounds accept x s rounds result s') :
    cutShort accept x.target (rounds.map .ofRound) ≤ s.queue.length := by
  have hcut := h.countP_isCutShort_le
  have harrivals := sum_arrivals h
  rw [cutShort_ofRound]
  exact hcut.trans (harrivals ▸ Nat.le_add_right _ _)

section Started

variable {N : Nat} (h : Rounds accept (.start target request pacing s.now) s rounds result s')
include h

theorem planned_rounds {i : Nat} {r : Round Script} (hr : rounds[i]? = some r) :
    Planned pacing target (· ∈ s.failing) s.now i (allEnded s.now ((rounds.take i).map .ofRound))
      (s.sends + allTries ((rounds.take i).map .ofRound)) (.ofRound r) := by
  obtain ⟨hpacing, hstarted, hdoubled⟩ := h.doubled (Doubled.start target request pacing s.now) hr
  obtain ⟨htarget, verdict, s₁, hlistens⟩ := h.exists_listens (List.mem_of_getElem? hr)
  have hrecorded := recorded_take h hr
  rw [Nat.zero_add] at hdoubled
  have hplanned := planned_ofRound hdoubled hlistens
  rwa [hpacing, hstarted, htarget, hrecorded.failing, hrecorded.now, hrecorded.sends] at hplanned

theorem tries_take_le {i : Nat} (hi : i < rounds.length) :
    allTries ((rounds.take i).map .ofRound) + maxBurst ≤ rounds.length * maxBurst := by
  have hburst : ∀ n ∈ ((rounds.take i).map .ofRound).map tries, n ≤ maxBurst := by
    intro n hn
    rw [List.map_map] at hn
    obtain ⟨r, hr, rfl⟩ := List.mem_map.mp hn
    obtain ⟨j, hj⟩ := List.mem_iff_getElem?.mp (List.mem_of_mem_take hr)
    obtain ⟨-, -, hdoubled⟩ := h.doubled (Doubled.start target request pacing s.now) hj
    exact (tries_ofRound_le r).trans (hdoubled.burst.le.trans (min_le_right _ _))
  have hsum := List.sum_le_card_nsmul _ _ hburst
  rw [List.length_map, List.length_map, List.length_take_of_le hi.le, Nat.nsmul_eq_mul] at hsum
  calc allTries ((rounds.take i).map .ofRound) + maxBurst
      ≤ i * maxBurst + maxBurst := Nat.add_le_add_right hsum _
    _ = (i + 1) * maxBurst := (Nat.succ_mul _ _).symm
    _ ≤ rounds.length * maxBurst := Nat.mul_le_mul_right _ hi

theorem sum_sent (hfailed : ∀ r ∈ rounds, (Attempt.ofRound r).failed = false)
    (hlength : rounds.length ≤ 64) :
    ((rounds.map Attempt.ofRound).map Attempt.sent).sum = 2 ^ rounds.length - 1 := by
  have hburst := h.sum_burst_eq (Doubled.start target request pacing s.now)
    (by rwa [Nat.zero_add])
  have hsent : (rounds.map Attempt.ofRound).map Attempt.sent =
      rounds.map fun r => r.inquiry.burst := by
    rw [List.map_map]
    exact List.map_congr_left fun r hr => sent_ofRound (hfailed r hr)
  rw [Nat.pow_zero, Nat.zero_add] at hburst
  rw [hsent, ← hburst, Nat.add_sub_cancel_left]

theorem length_rounds_le (hN : pacing.budget ≤ pacing.firstWindow * (2 ^ N - 1)) :
    rounds.length ≤ cutShort accept target (rounds.map .ofRound) + N := by
  rw [cutShort_ofRound]
  exact h.length_le le_rfl (Doubled.start target request pacing s.now).le_window
    (fun _ => by rw [elapsed, Nat.pow_zero, Nat.sub_self, Nat.mul_zero]; rfl) hN

end Started

section Ends

variable {N : Nat} (hwindow : 0 < pacing.firstWindow)
  (hN : IsLeast {n | pacing.budget ≤ pacing.firstWindow * (2 ^ n - 1)} N)
include hwindow hN

theorem le_log2_of_least : N ≤ Nat.log2 pacing.budget + 1 := by
  have hlog : pacing.budget < 2 ^ (Nat.log2 pacing.budget + 1) := Nat.lt_log2_self
  refine hN.2 ?_
  calc pacing.budget ≤ 2 ^ (Nat.log2 pacing.budget + 1) - 1 := Nat.le_sub_one_of_lt hlog
    _ ≤ pacing.firstWindow * (2 ^ (Nat.log2 pacing.budget + 1) - 1) :=
      Nat.le_mul_of_pos_left _ hwindow

theorem exists_rounds_of_inquire (s : Script) (target : SocketAddress) (request : Bytes)
    (accept : Accept α) :
    ∃ rounds result s', s.inquire pacing target request accept = some (result, s') ∧
      Rounds accept (.start target request pacing s.now) s rounds result s' := by
  obtain ⟨rounds, result, s', h⟩ := exists_rounds (x := .start target request pacing s.now) accept s
    le_rfl fun _ => hwindow
  refine ⟨rounds, result, s', h.run ?_, h⟩
  have hreceptions : receptions rounds + cutShort accept target (rounds.map .ofRound) ≤ _ :=
    cutShort_ofRound accept target rounds ▸ h.receptions_le
  have harrivals := sum_arrivals h
  have hlength := length_rounds_le h hN.1
  have hlog := le_log2_of_least hwindow hN
  simp only [patience]
  lia

end Ends

section Silent

theorem receive_ne_cancelled {reception : Reception} (hcancelAt : s.cancelAt = none)
    (h : Transport.receive s = (reception, s')) : reception ≠ .cancelled := by
  obtain rfl : _ = reception := congrArg Prod.fst h
  have hwait := Wait.reception_ne_cancelled s.now s.deadline s.next?
  rwa [← hcancelAt] at hwait

theorem listens_ne_cancelled (hcancelAt : s.cancelAt = none)
    (h : Listens x accept s heard verdict s') : ∀ p ∈ heard, p.2 ≠ .cancelled := by
  induction h with
  | ends hreceive _ _ =>
    exact List.forall_mem_singleton.mpr (receive_ne_cancelled hcancelAt hreceive)
  | ignores hreceive _ _ ih =>
    have hreception := receive_ne_cancelled hcancelAt hreceive
    obtain ⟨_, _, rfl⟩ := receive_eq hreceive
    exact List.forall_mem_cons.mpr ⟨hreception, ih hcancelAt⟩

structure Silent (e : Endpoint) (s : Script) : Prop where
  cancelAt : s.cancelAt = none
  isForeign : ∀ reception ∈ s.unread, reception.isForeign e = true

theorem Silent.isForeign_or_timedOut (hsilent : Silent (.ofSocket x.target) s)
    (h : Rounds accept x s rounds result s') {r : Round Script} (hr : r ∈ rounds)
    {p : Time × Reception} (hp : p ∈ r.heard) :
    p.2.isForeign (.ofSocket x.target) = true ∨ p.2 = .timedOut := by
  cases harrival : p.2.isArrival with
  | true =>
    have hmem : p.2 ∈ s.unread := by
      rw [(recorded_rounds h).unread]
      refine List.mem_append_left _ (List.mem_filter.mpr ⟨List.mem_map_of_mem ?_, harrival⟩)
      exact List.mem_flatMap.mpr ⟨_, List.mem_map_of_mem hr, hp⟩
    exact .inl (hsilent.isForeign _ hmem)
  | false =>
    obtain ⟨-, verdict, s₁, hlistens⟩ := h.exists_listens hr
    obtain ⟨i, hi⟩ := List.mem_iff_getElem?.mp hr
    have hcancelAt : (r.inquiry.launch r.opening).cancelAt = none := by
      rw [launch_eq]
      exact (recorded_take h hi).cancelAt.trans hsilent.cancelAt
    have hne := listens_ne_cancelled hcancelAt hlistens p hp
    rcases p with ⟨time, _ | _ | _ | _⟩
    · cases harrival
    · exact .inr rfl
    · cases harrival
    · exact absurd rfl hne

theorem Silent.eq_timeout (hsilent : Silent (.ofSocket x.target) s)
    (h : Rounds accept x s rounds result s') :
    result = .error .timeout ∧ ∀ r ∈ rounds, isCutShort accept x.target r.heard = false := by
  have hjudge : ∀ r ∈ rounds, ∀ p ∈ r.heard, x.judge accept p.1 p.2 = .ignore ∨
      x.judge accept p.1 p.2 = .reject ∧ p.2 = .timedOut := by
    intro r hr p hp
    rcases hsilent.isForeign_or_timedOut h hr hp with hforeign | htimedOut
    · exact .inl (judge_eq_ignore_iff.mpr hforeign)
    · exact .inr ⟨by rw [htimedOut]; rfl, htimedOut⟩
  constructor
  · refine h.eq_timeout fun r hr p hp result hsettle => ?_
    rcases hjudge r hr p hp with hignore | ⟨hreject, -⟩
    · cases hignore.symm.trans hsettle
    · cases hreject.symm.trans hsettle
  · intro r hr
    obtain ⟨-, verdict, s₁, hlistens⟩ := h.exists_listens hr
    obtain ⟨before, reception, hheard, -, -⟩ := hlistens.exists_last
    have hlast := hjudge r hr (s₁.now, reception)
      (hheard ▸ List.mem_append_right _ (List.mem_singleton_self _))
    rw [← Bool.not_eq_true, hheard]
    intro hcut
    obtain ⟨hreject, hreception⟩ := (isCutShort_concat _ _ _).mp hcut
    rcases hlast with hignore | ⟨-, htimedOut⟩
    · cases hignore.symm.trans hreject
    · exact hreception htimedOut

theorem Silent.length_rounds {N : Nat} (hsilent : Silent (.ofSocket target) s)
    (h : Rounds accept (.start target request pacing s.now) s rounds result s')
    (hN : IsLeast {n | pacing.budget ≤ pacing.firstWindow * (2 ^ n - 1)} N) :
    result = .error .timeout ∧ rounds.length = N ∧
      (rounds.map Round.window).sum = pacing.budget := by
  obtain ⟨hresult, huncut⟩ := hsilent.eq_timeout h
  have hwindows : (rounds.map Round.window).sum = pacing.budget := by
    have hsum := h.sum_window_of_uncut huncut hresult
    have hend := h.now_of_timeout le_rfl (Nat.le_add_right _ _) hresult
    exact Nat.add_left_cancel (hsum.trans hend)
  refine ⟨hresult, le_antisymm ?_ ?_, hwindows⟩
  · have hlength := length_rounds_le h hN.1
    have hnone : rounds.countP (fun r => isCutShort accept target r.heard) = 0 :=
      List.countP_eq_zero.mpr fun r hr => Bool.eq_false_iff.mp (huncut r hr)
    rwa [cutShort_ofRound, hnone, Nat.zero_add] at hlength
  · have hsum := h.sum_window_le (Doubled.start target request pacing s.now)
    refine hN.2 ?_
    calc pacing.budget = (rounds.map Round.window).sum := hwindows.symm
      _ ≤ elapsed pacing 0 + (rounds.map Round.window).sum := Nat.le_add_left _ _
      _ ≤ elapsed pacing (0 + rounds.length) := hsum
      _ = pacing.firstWindow * (2 ^ rounds.length - 1) := by rw [Nat.zero_add, elapsed]

end Silent

section Schedule

variable {N : Nat} {fails : Nat → Prop}

/-- The attempts of an inquiry for which so many rounds use up the budget. -/
structure Schedule (pacing : Pacing) (target : SocketAddress) (request : Bytes)
    (accept : Accept α) (fails : Nat → Prop) (N : Nat) (s : Script) (attempts : List Attempt)
    (result : Except Failure α) (s' : Script) : Prop where
  recorded : Recorded pacing target request s attempts s'
  planned : ∀ i a, attempts[i]? = some a → Planned pacing target fails s.now i
    (allEnded s.now (attempts.take i)) (s.sends + allTries (attempts.take i)) a
  length_le : attempts.length ≤ cutShort accept target attempts + N
  silent : Silent (.ofSocket target) s → result = .error .timeout ∧ attempts.length = N ∧
    (attempts.map Attempt.window).sum = pacing.budget ∧
      ((∀ i, ¬ fails i) → N ≤ 64 → (attempts.map Attempt.sent).sum = 2 ^ N - 1)

theorem schedule_of_rounds
    (h : Rounds accept (.start target request pacing s.now) s rounds result s')
    (hN : IsLeast {n | pacing.budget ≤ pacing.firstWindow * (2 ^ n - 1)} N)
    (hfails : ∀ i < s.sends + (s.queue.length + N) * maxBurst, i ∈ s.failing ↔ fails i) :
    Schedule pacing target request accept fails N s (rounds.map .ofRound) result s' := by
  have hlength := length_rounds_le h hN.1
  have hcut : cutShort accept target (rounds.map .ofRound) ≤ s.queue.length := cutShort_le h
  have hplanned : ∀ i a, (rounds.map Attempt.ofRound)[i]? = some a → Planned pacing target fails
      s.now i (allEnded s.now ((rounds.map .ofRound).take i))
        (s.sends + allTries ((rounds.map .ofRound).take i)) a := by
    intro i a ha
    rw [List.getElem?_map, Option.map_eq_some_iff] at ha
    obtain ⟨r, hr, rfl⟩ := ha
    obtain ⟨hi, -⟩ := List.getElem?_eq_some_iff.mp hr
    rw [← List.map_take]
    have hbound := tries_take_le h hi
    have hrounds : rounds.length * maxBurst ≤ (s.queue.length + N) * maxBurst :=
      Nat.mul_le_mul_right _ (hlength.trans (Nat.add_le_add_right hcut N))
    refine (planned_rounds h hr).congr fun j hj => hfails j (hj.trans_le ?_)
    rw [Nat.add_assoc]
    exact Nat.add_le_add_left (hbound.trans hrounds) _
  refine ⟨recorded_rounds h, hplanned, ?_, fun hsilent => ?_⟩
  · rwa [List.length_map]
  · obtain ⟨hresult, hcount, hwindows⟩ := hsilent.length_rounds h hN
    refine ⟨hresult, by rw [List.length_map, hcount], ?_, fun hnever hsmall => ?_⟩
    · rw [List.map_map]
      exact hwindows
    · rw [← hcount] at hsmall ⊢
      refine sum_sent h (fun r hr => ?_) hsmall
      obtain ⟨i, hi⟩ := List.mem_iff_getElem?.mp hr
      have hround := hplanned i (.ofRound r) (by rw [List.getElem?_map, hi]; rfl)
      exact Bool.eq_false_iff.mpr fun hfailed => hnever _ (hround.fails hfailed)

/-- Any inquiry that waits at all keeps to its schedule, over every script. Sends may fail in any
pattern, which the script lists as far as the attempts can get. -/
theorem inquire_schedule (s : Script) (fails : Nat → Prop) (target : SocketAddress)
    (request : Bytes) (accept : Accept α)
    (hwindow : 0 < pacing.firstWindow)
    (hN : IsLeast {n | pacing.budget ≤ pacing.firstWindow * (2 ^ n - 1)} N)
    (hfails : ∀ i < s.sends + (s.queue.length + N) * maxBurst, i ∈ s.failing ↔ fails i) :
    ∃ result s' attempts, s.inquire pacing target request accept = some (result, s') ∧
      Schedule pacing target request accept fails N s attempts result s' := by
  obtain ⟨rounds, result, s', hrun, h⟩ :=
    exists_rounds_of_inquire hwindow hN s target request accept
  exact ⟨result, s', _, hrun, schedule_of_rounds h hN hfails⟩

def strangerScript : Script := .new [⟨5, 0, .datagram [1] roughStranger⟩] [] none

theorem isLeast_tenth : IsLeast {n | (Pacing.uniform 100 35).budget ≤
    (Pacing.uniform 100 35).firstWindow * (2 ^ n - 1)} 2 := by
  refine ⟨by decide, fun n hn => ?_⟩
  rcases n with _ | _ | n
  · exact absurd hn (by decide)
  · exact absurd hn (by decide)
  · exact Nat.le_add_left 2 n

theorem inquire_schedule_unanswered : ∃ result s' attempts,
    strangerScript.inquire (.uniform 100 35) roughServer [7] acceptsOne = some (result, s') ∧
      Schedule (.uniform 100 35) roughServer [7] acceptsOne (fun _ => False) 2 strangerScript
        attempts result s' ∧
      attempts.length = 2 ∧ (attempts.map Attempt.window).sum = 100 ∧
      (attempts.map Attempt.sent).sum = 3 := by
  obtain ⟨result, s', attempts, hrun, hschedule⟩ :=
    inquire_schedule strangerScript (fun _ => False) roughServer [7] acceptsOne (by decide)
      isLeast_tenth (by simp [strangerScript, new])
  have hsilent : Silent (.ofSocket roughServer) strangerScript := ⟨rfl, by decide⟩
  obtain ⟨-, hlength, hwindows, hsent⟩ := hschedule.silent hsilent
  exact ⟨result, s', attempts, hrun, hschedule, hlength, hwindows, hsent (by simp) (by decide)⟩

end Schedule

end Script
end ServerDiscovery.Simulation
