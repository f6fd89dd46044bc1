import Mathlib.Data.List.Basic
import ServerDiscovery.Proofs.Client.Rounds
import ServerDiscovery.Proofs.Client.Timeliness

/-! The rounds of an inquiry in numbers. Windows and bursts double from round to round, up to the
time that is left and to the largest burst; so the rounds that are waited for to the end use up the
budget, and there are only so many of them. -/

namespace ServerDiscovery.Client

def Reception.isArrival : Reception → Bool
  | datagram _ _ | failed => true
  | timedOut | cancelled => false

def Reception.isForeign (e : Endpoint) : Reception → Bool
  | datagram _ source => Endpoint.ofSocket source ≠ e
  | timedOut | failed | cancelled => false

theorem Reception.isArrival_of_isForeign {e : Endpoint} {reception : Reception}
    (h : reception.isForeign e = true) : reception.isArrival = true := by
  cases reception with
  | datagram | failed => rfl
  | timedOut | cancelled => cases h

namespace Inquiry

variable {σ α : Type} {x : Inquiry} {accept : Accept α} {pacing : Pacing} {now later : Time}
  {n : Nat}

/-- The time that so many rounds take if each is waited for to its end and the budget lets them. -/
def elapsed (pacing : Pacing) (n : Nat) : Time := pacing.firstWindow * (2 ^ n - 1)

theorem elapsed_succ (pacing : Pacing) (n : Nat) :
    elapsed pacing (n + 1) = elapsed pacing n + pacing.firstWindow * 2 ^ n := by
  have hpos : 1 ≤ 2 ^ n := Nat.one_le_two_pow
  unfold elapsed
  rw [← Nat.mul_add, Nat.pow_succ]
  congr 1
  lia

theorem elapsed_mono (pacing : Pacing) {i n : Nat} (h : i ≤ n) :
    elapsed pacing i ≤ elapsed pacing n :=
  Nat.mul_le_mul_left _ (Nat.sub_le_sub_right (Nat.pow_le_pow_right (by omega) h) 1)

theorem mul_two_pow_succ (w n : Nat) : w * 2 ^ (n + 1) = 2 * (w * 2 ^ n) := by
  rw [Nat.pow_succ, Nat.mul_comm _ 2, Nat.mul_left_comm]

theorem left_le_left (x : Inquiry) (h : now ≤ later) : x.left later ≤ x.left now :=
  Nat.sub_le_sub_left (Nat.sub_le_sub_right h _) _

theorem lt_of_elapsed_le {j N : Nat} (hleft : x.left now ≠ 0)
    (hspent : x.started + elapsed x.pacing j ≤ now) (hN : x.pacing.budget ≤ elapsed x.pacing N) :
    j < N := by
  have hlt := lt_of_left_ne_zero hleft
  by_contra hge
  have hmono := elapsed_mono x.pacing (Nat.le_of_not_lt hge)
  lia

theorem le_backOff_window {w : Time} (h : min w (x.left now) ≤ x.window) (hle : now ≤ later) :
    min (2 * w) (x.left later) ≤ (x.backOff later).window := by
  have hleft := x.left_le_left hle
  show min (2 * w) (x.left later) ≤ min (2 * x.window) (x.left later)
  lia

def deadline (x : Inquiry) (now : Time) : Time := now + min x.window (x.left now)

theorem le_deadline_of_window {w : Time} (h : min w (x.left now) ≤ x.window)
    (hstarted : x.started ≤ now) (hleft : x.left (x.deadline now) ≠ 0) : now + w ≤ x.deadline now := by
  have hlt := lt_of_left_ne_zero hleft
  simp only [deadline, left] at *
  lia

theorem left_deadline_lt (hstarted : x.started ≤ now) (hleft : x.left now ≠ 0)
    (hwindow : 0 < x.window) : x.left (x.deadline now) < x.left now := by
  simp only [deadline, left] at *
  lia

structure Doubled (x : Inquiry) (now : Time) (n : Nat) : Prop where
  le_window : min (x.pacing.firstWindow * 2 ^ n) (x.left now) ≤ x.window
  window_le : x.window ≤ x.pacing.firstWindow * 2 ^ n
  burst : x.burst = min (2 ^ n) maxBurst

namespace Doubled

theorem start (target : SocketAddress) (request : Bytes) (pacing : Pacing) (now : Time) :
    Doubled (.start target request pacing now) now 0 where
  le_window := by simp [Inquiry.start]
  window_le := by simp [Inquiry.start]
  burst := rfl

theorem backOff (h : Doubled x now n) (hle : now ≤ later) :
    Doubled (x.backOff later) later (n + 1) := by
  have hpow := mul_two_pow_succ x.pacing.firstWindow n
  obtain ⟨hlow, hhigh, hburst⟩ := h
  refine ⟨?_, ?_, ?_⟩
  · rw [backOff_pacing, hpow]
    exact le_backOff_window hlow hle
  · rw [backOff_pacing, hpow]
    exact (min_le_left _ _).trans (Nat.mul_le_mul_left 2 hhigh)
  · show min (2 * x.burst) maxBurst = min (2 ^ (n + 1)) maxBurst
    rw [hburst, Nat.pow_succ]
    lia

theorem window_eq (h : Doubled x now n) :
    min x.window (x.left now) = min (x.pacing.firstWindow * 2 ^ n) (x.left now) :=
  le_antisymm (min_le_min_right _ h.window_le) (le_min h.le_window (min_le_right _ _))

theorem burst_eq (h : Doubled x now n) (hn : n < 64) : x.burst = 2 ^ n := by
  have hpow : 2 ^ n ≤ 2 ^ 63 := Nat.pow_le_pow_right Nat.two_pos (Nat.le_of_lt_succ hn)
  rw [h.burst]
  exact min_eq_left (hpow.trans (by decide))

end Doubled

/-- Whether a round was cut short, by a reply that is not acceptable or by an error of receiving. -/
def isCutShort (accept : Accept α) (target : SocketAddress) (heard : List (Time × Reception)) :
    Bool :=
  match heard.getLast? with
  | some (time, .datagram payload source) =>
    Endpoint.ofSocket source = Endpoint.ofSocket target ∧ !(accept time payload source).toBool
  | some (_, .failed) => true
  | _ => false

section Rounds

variable [Transport σ] {k k' : σ} {heard : List (Time × Reception)} {verdict : Verdict α}
  {result : Except Failure α} {rounds : List (Round σ)}

theorem isCutShort_concat (before : List (Time × Reception)) (time : Time) (reception : Reception) :
    isCutShort accept x.target (before ++ [(time, reception)]) = true ↔
      x.judge accept time reception = .reject ∧ reception ≠ .timedOut := by
  cases reception with
  | datagram payload source =>
    cases haccept : accept time payload source <;> by_cases hsource : x.isFromTarget source <;>
      simp_all [isCutShort, judge, isFromTarget, Except.toBool]
  | timedOut | failed | cancelled => simp [isCutShort, judge]

theorem Listens.cutShort_or_timedOut (h : Listens x accept k heard .reject k') :
    isCutShort accept x.target heard = true ∨
      isCutShort accept x.target heard = false ∧ (Transport.now k', .timedOut) ∈ heard := by
  obtain ⟨before, reception, rfl, -, hjudge⟩ := h.exists_last
  by_cases hreception : reception = .timedOut
  · subst hreception
    refine .inr ⟨?_, List.mem_append_right _ (List.mem_singleton_self _)⟩
    rw [← Bool.not_eq_true, isCutShort_concat]
    exact fun hcut => hcut.2 rfl
  · exact .inl ((isCutShort_concat _ _ _).mpr ⟨hjudge, hreception⟩)

theorem Listens.not_cutShort (h : Listens x accept k heard (.settle result) k') :
    isCutShort accept x.target heard = false := by
  obtain ⟨before, reception, rfl, -, hjudge⟩ := h.exists_last
  rw [← Bool.not_eq_true, isCutShort_concat, hjudge]
  exact fun hcut => nomatch hcut.1

theorem judge_eq_ignore_iff {time : Time} {reception : Reception} :
    x.judge accept time reception = .ignore ↔
      reception.isForeign (.ofSocket x.target) = true := by
  cases reception with
  | datagram payload source =>
    cases haccept : accept time payload source <;> by_cases hsource : x.isFromTarget source <;>
      simp_all [judge, isFromTarget, Reception.isForeign]
  | timedOut | failed | cancelled => simp [judge, Reception.isForeign]

theorem isArrival_of_ignored {time : Time} {reception : Reception}
    (h : x.judge accept time reception = .ignore) : reception.isArrival = true :=
  Reception.isArrival_of_isForeign (judge_eq_ignore_iff.mp h)

theorem Listens.length_le (h : Listens x accept k heard verdict k') :
    heard.length + (if isCutShort accept x.target heard then 1 else 0) ≤
      heard.countP (fun p => p.2.isArrival) + 1 := by
  obtain ⟨before, reception, rfl, hbefore, hjudge⟩ := h.exists_last
  have hcount : before.countP (fun p => p.2.isArrival) = before.length :=
    List.countP_eq_length.mpr fun p hp => isArrival_of_ignored (hbefore p hp)
  rw [List.length_append, List.countP_append, hcount, List.length_singleton,
    List.countP_singleton]
  cases hcut : isCutShort accept x.target (before ++ [(Transport.now k', reception)]) with
  | false => exact Nat.add_le_add_right (Nat.le_add_right _ _) 1
  | true =>
    obtain ⟨hreject, hreception⟩ := (isCutShort_concat _ _ _).mp hcut
    have harrival : reception.isArrival = true := by
      cases reception with
      | datagram | failed => rfl
      | timedOut => exact absurd rfl hreception
      | cancelled => cases hreject
    rw [if_pos harrival]
    rfl

theorem Listens.countP_pos (h : Listens x accept k heard verdict k')
    (hcut : isCutShort accept x.target heard = true) :
    0 < heard.countP fun p => p.2.isArrival := by
  have hlen := h.length_le
  obtain ⟨before, reception, rfl, -, -⟩ := h.exists_last
  rw [if_pos hcut, List.length_append, List.length_singleton] at hlen
  lia

theorem Rounds.countP_isCutShort_le (h : Rounds accept x k rounds result k') :
    rounds.countP (fun r => isCutShort accept x.target r.heard) ≤
      (rounds.map fun r => r.heard.countP fun p => p.2.isArrival).sum := by
  induction h with
  | spent => exact le_rfl
  | settled _ hlistens => simp [hlistens.not_cutShort]
  | failed _ hlistens _ ih =>
    rw [List.countP_cons, List.map_cons, List.sum_cons, Nat.add_comm]
    refine Nat.add_le_add ?_ ih
    split_ifs with hcut
    · exact hlistens.countP_pos hcut
    · exact Nat.zero_le _

theorem Rounds.receptions_le (h : Rounds accept x k rounds result k') :
    receptions rounds + rounds.countP (fun r => isCutShort accept x.target r.heard) ≤
      (rounds.map fun r => r.heard.countP fun p => p.2.isArrival).sum + rounds.length := by
  induction h with
  | spent => exact le_rfl
  | @settled x k k' heard result _ hlistens =>
    have hlen := hlistens.length_le
    rw [hlistens.not_cutShort] at hlen
    simpa [receptions, hlistens.not_cutShort] using hlen
  | @failed x k k₁ k' heard rounds result _ hlistens _ ih =>
    have hlen := hlistens.length_le
    rw [receptions] at ih ⊢
    simp only [List.map_cons, List.sum_cons, List.countP_cons, List.length_cons, backOff_target]
      at ih ⊢
    lia

variable [LawfulTransport σ]

theorem Listens.launched (h : Listens x accept (x.launch k) heard verdict k') :
    Transport.now k ≤ Transport.now k' ∧ Transport.now k' ≤ x.deadline (Transport.now k) ∧
      ∀ p ∈ heard, Transport.now k ≤ p.1 ∧ p.1 ≤ Transport.now k' ∧
        (p.2 = .timedOut → p.1 = x.deadline (Transport.now k)) := by
  have htimely := h.timely (by rw [now_launch, deadline_launch]; exact Nat.le_add_right _ _)
  rwa [now_launch, deadline_launch] at htimely

theorem Rounds.length_le {j N : Nat} (h : Rounds accept x k rounds result k')
    (hstarted : x.started ≤ Transport.now k)
    (hwindow : min (x.pacing.firstWindow * 2 ^ j) (x.left (Transport.now k)) ≤ x.window)
    (hspent : x.left (Transport.now k) ≠ 0 → x.started + elapsed x.pacing j ≤ Transport.now k)
    (hN : x.pacing.budget ≤ elapsed x.pacing N) :
    rounds.length ≤ rounds.countP (fun r => isCutShort accept x.target r.heard) + (N - j) := by
  -- Only a round that is not cut short moves on in `j`, the rounds that the budget has paid for.
  induction h generalizing j with
  | spent => exact Nat.zero_le _
  | settled hleft _ =>
    have hj := lt_of_elapsed_le hleft (hspent hleft) hN
    rw [List.length_singleton]
    lia
  | @failed x k k₁ k' heard rounds result hleft hlistens _ ih =>
    obtain ⟨hle, -, hheard⟩ := hlistens.launched
    have hnext := le_backOff_window hwindow hle
    rw [List.length_cons, List.countP_cons]
    rcases hlistens.cutShort_or_timedOut with hcut | ⟨hcut, hmem⟩
    · have hsame : min (x.pacing.firstWindow * 2 ^ j) (x.left (Transport.now k₁)) ≤
          (x.backOff (Transport.now k₁)).window :=
        (min_le_min_right _ (Nat.le_mul_of_pos_left _ Nat.two_pos)).trans hnext
      have hrest := ih (hstarted.trans hle) hsame
        (fun hleft' => (hspent (by have := x.left_le_left hle; lia)).trans hle) hN
      simp only [hcut, if_true, backOff_target] at hrest ⊢
      lia
    · have hend : Transport.now k₁ = x.deadline (Transport.now k) := (hheard _ hmem).2.2 rfl
      have hj := lt_of_elapsed_le hleft (hspent hleft) hN
      rw [← mul_two_pow_succ] at hnext
      have hrest := ih (hstarted.trans hle) hnext (fun hleft' => by
        have hpaid := le_deadline_of_window hwindow hstarted (hend ▸ hleft')
        have hbefore := hspent hleft
        rw [backOff_pacing, backOff_started, elapsed_succ, hend]
        lia) hN
      simp only [hcut, backOff_target] at hrest ⊢
      lia

theorem Rounds.doubled (h : Rounds accept x k rounds result k')
    (hx : Doubled x (Transport.now k) n) {i : Nat} {r : Round σ} (hr : rounds[i]? = some r) :
    r.inquiry.pacing = x.pacing ∧ r.inquiry.started = x.started ∧
      Doubled r.inquiry (Transport.now r.opening) (n + i) := by
  induction h generalizing n i with
  | spent => cases hr
  | settled _ _ =>
    cases i with
    | zero => cases hr; exact ⟨rfl, rfl, hx⟩
    | succ i => cases hr
  | failed _ hlistens _ ih =>
    cases i with
    | zero => cases hr; exact ⟨rfl, rfl, hx⟩
    | succ i =>
      rw [← Nat.succ_add_eq_add_succ]
      exact ih (hx.backOff hlistens.launched.1) hr

theorem Rounds.sum_window_le (h : Rounds accept x k rounds result k')
    (hx : Doubled x (Transport.now k) n) :
    elapsed x.pacing n + (rounds.map Round.window).sum ≤ elapsed x.pacing (n + rounds.length) := by
  induction h generalizing n with
  | spent => exact le_rfl
  | @settled x k _ _ _ _ _ =>
    have hwindow : min x.window (x.left (Transport.now k)) ≤ x.pacing.firstWindow * 2 ^ n :=
      (min_le_left _ _).trans hx.window_le
    simpa [Round.window, elapsed_succ] using hwindow
  | @failed x k k₁ k' heard rounds result _ hlistens _ ih =>
    have hwindow : min x.window (x.left (Transport.now k)) ≤ x.pacing.firstWindow * 2 ^ n :=
      (min_le_left _ _).trans hx.window_le
    have hrest := ih (hx.backOff hlistens.launched.1)
    rw [backOff_pacing, elapsed_succ, Nat.succ_add_eq_add_succ] at hrest
    simp only [List.map_cons, List.sum_cons, List.length_cons, Round.window]
    lia

theorem Rounds.sum_window_of_uncut (h : Rounds accept x k rounds result k')
    (huncut : ∀ r ∈ rounds, isCutShort accept x.target r.heard = false)
    (hresult : result = .error .timeout) :
    Transport.now k + (rounds.map Round.window).sum = Transport.now k' := by
  induction h with
  | spent => rfl
  | settled _ hlistens => exact absurd hresult hlistens.ne_timeout
  | @failed x k k₁ k' heard rounds result _ hlistens _ ih =>
    obtain ⟨hcut, hrest⟩ := List.forall_mem_cons.mp huncut
    obtain ⟨-, -, hheard⟩ := hlistens.launched
    obtain hfalse | ⟨-, hmem⟩ := hlistens.cutShort_or_timedOut
    · exact absurd hfalse (by simp [hcut])
    · have hend : Transport.now k₁ = x.deadline (Transport.now k) := (hheard _ hmem).2.2 rfl
      rw [List.map_cons, List.sum_cons, ← Nat.add_assoc, ← ih hrest hresult, hend]
      rfl

theorem Rounds.now_of_timeout (h : Rounds accept x k rounds result k')
    (hstarted : x.started ≤ Transport.now k) (hnow : Transport.now k ≤ x.limit)
    (hresult : result = .error .timeout) : Transport.now k' = x.limit := by
  induction h with
  | spent hleft => exact le_antisymm hnow (limit_le_of_left_eq_zero hstarted hleft)
  | settled _ hlistens => exact absurd hresult hlistens.ne_timeout
  | failed _ hlistens _ ih =>
    obtain ⟨hle, hdeadline, -⟩ := hlistens.launched
    exact ih (hstarted.trans hle) (hdeadline.trans (deadline_le_limit hstarted hnow)) hresult

theorem Rounds.sum_burst_eq (h : Rounds accept x k rounds result k')
    (hx : Doubled x (Transport.now k) n) (hn : n + rounds.length ≤ 64) :
    2 ^ n + (rounds.map fun r => r.inquiry.burst).sum = 2 ^ (n + rounds.length) := by
  induction h generalizing n with
  | spent => rfl
  | settled _ _ =>
    rw [List.length_singleton] at hn ⊢
    rw [List.map_singleton, List.sum_singleton, hx.burst_eq hn, Nat.pow_succ, Nat.mul_two]
  | failed _ hlistens _ ih =>
    rw [List.length_cons, ← Nat.succ_add_eq_add_succ] at hn ⊢
    have hburst := hx.burst_eq (Nat.lt_of_lt_of_le n.lt_succ_self ((Nat.le_add_right _ _).trans hn))
    rw [← ih (hx.backOff hlistens.launched.1) hn, List.map_cons, List.sum_cons, hburst,
      ← Nat.add_assoc, ← Nat.mul_two, ← Nat.pow_succ]

end Rounds
end Inquiry
end ServerDiscovery.Client
