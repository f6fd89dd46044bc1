import Mathlib.Data.List.Basic
import ServerDiscovery.Proofs.Simulation.Ending

/-! Datagrams from elsewhere do not interfere with an inquiry. A script is compared with what is left
of it without them: while the first one hears a stranger, the second one still waits, and whatever
comes next finds both at the same time. -/

namespace ServerDiscovery.Simulation

open Client Inquiry

def Event.isForeign {σ : Type} (e : Endpoint) : Event σ → Bool
  | .received source _ => Endpoint.ofSocket source ≠ e
  | _ => false

def Journal.without {σ : Type} (e : Endpoint) (j : Journal σ) : Journal σ :=
  ⟨j.events.filter fun entry => !entry.2.isForeign e⟩

@[simp] theorem Journal.without_followedBy {σ : Type} (e : Endpoint) (j : Journal σ)
    (entries : List (Time × Event σ)) : (j.followedBy entries).without e =
      (j.without e).followedBy (entries.filter fun entry => !entry.2.isForeign e) := by
  simp [Journal.followedBy, Journal.without]

theorem filter_noted (e : Endpoint) (heard : List (Time × Reception)) :
    ((noted heard).filter fun entry => !entry.2.isForeign e) =
      noted (heard.filter fun p => !p.2.isForeign e) := by
  induction heard with
  | nil => rfl
  | cons p heard ih =>
    rw [← List.singleton_append, noted_append, List.filter_append, List.filter_append, noted_append,
      ih]
    congr 1
    obtain ⟨time, reception⟩ := p
    cases hforeign : reception.isForeign e <;> cases reception <;>
      simp_all [noted, event?, Event.isForeign, Reception.isForeign]

def Cue.isForeign (e : Endpoint) (c : Cue) : Bool := c.arrival.reception.isForeign e

def Script.without (e : Endpoint) (s : Script) : Script :=
  { s with
    queue := s.queue.filter fun c => !c.isForeign e
    journal := s.journal.without e }

section Wait

variable {n now deadline : Time} {cancelAt : Option Time} {next next' : Option (Time × Arrival)}

/-- A wait from `n` on that has been interrupted, and that goes on at a later time. -/
structure Lags (n now deadline : Time) (cancelAt : Option Time) : Prop where
  le : n ≤ now
  le_deadline : now ≤ max n deadline
  uncancelled : ∀ cancel, cancelAt = some cancel → now = n ∨ now < cancel

theorem Lags.refl (now deadline : Time) (cancelAt : Option Time) :
    Lags now now deadline cancelAt := ⟨le_rfl, le_max_left _ _, fun _ _ => .inl rfl⟩

theorem Lags.max_eq (h : Lags n now deadline cancelAt) : max n deadline = max now deadline :=
  le_antisymm (max_le_max_right _ h.le) (max_le h.le_deadline (le_max_right _ _))

theorem Lags.of_uncancelled (h : Lags n now deadline cancelAt)
    (heq : Wait.of n deadline none next' = Wait.of now deadline none next) :
    Wait.of n deadline cancelAt next' = Wait.of now deadline cancelAt next := by
  cases cancelAt with
  | none => exact heq
  | some cancel =>
    rw [Wait.of_some, Wait.of_some, heq]
    rcases h.uncancelled cancel rfl with rfl | hlt
    · rfl
    · rw [if_neg (Nat.not_le_of_lt hlt), if_neg (Nat.not_le_of_lt (h.le.trans_lt hlt))]

theorem Lags.of_same (h : Lags n now deadline cancelAt)
    (hdue : ∀ cue ∈ next, now ≤ max n cue.1) :
    Wait.of n deadline cancelAt next = Wait.of now deadline cancelAt next := by
  refine h.of_uncancelled ?_
  have hmax := h.max_eq
  cases next with
  | none => simp only [Wait.of, hmax]
  | some cue =>
    have hcue := hdue cue rfl
    have hends : max n cue.1 = max now cue.1 :=
      le_antisymm (max_le_max_right _ h.le) (max_le hcue (le_max_right _ _))
    have hcomes : cue.1 ≤ n ∨ cue.1 ≤ deadline ↔ cue.1 ≤ now ∨ cue.1 ≤ deadline := by
      rw [← le_max_iff, ← le_max_iff, hmax]
    simp only [Wait.of, hmax, hends, hcomes]

def ComesBefore (n now : Time) (next next' : Option (Time × Arrival)) : Prop :=
  ∀ cue' ∈ next', now ≤ max n cue'.1 ∧ ∃ cue ∈ next, cue.1 ≤ cue'.1

theorem Lags.comes_of_comes (h : Lags n now deadline cancelAt) {due due' : Time} (hle : due ≤ due')
    (hcomes : due' ≤ n ∨ due' ≤ deadline) : due ≤ now ∨ due ≤ deadline :=
  hcomes.imp (fun hn => hle.trans (hn.trans h.le)) hle.trans

theorem Lags.ends_le (h : Lags n now deadline cancelAt) (hbefore : ComesBefore n now next next') :
    (Wait.of now deadline none next).ends ≤ (Wait.of n deadline none next').ends := by
  have hlimit : (Wait.of now deadline none next).ends ≤ max n deadline :=
    h.max_eq ▸ (Wait.fits_of_uncancelled now deadline next).2.1
  cases next' with
  | none => exact hlimit
  | some cue' =>
    obtain ⟨hnow, cue, rfl, hle⟩ := hbefore cue' rfl
    by_cases hcomes : cue'.1 ≤ n ∨ cue'.1 ≤ deadline
    · simp only [Wait.of, if_pos hcomes, if_pos (h.comes_of_comes hle hcomes)]
      exact max_le hnow (hle.trans (le_max_right _ _))
    · simp only [Wait.of, if_neg hcomes] at hlimit ⊢
      exact hlimit

theorem Lags.of_later_uncancelled (h : Lags n now deadline cancelAt)
    (hbefore : ComesBefore n now next next')
    (hwait : (Wait.of now deadline none next).consumes = false) :
    Wait.of n deadline none next' = Wait.of now deadline none next := by
  have htimedOut : Wait.of now deadline none next = ⟨.timedOut, max n deadline, false⟩ := by
    rw [h.max_eq]
    cases next with
    | none => rfl
    | some cue =>
      simp only [Wait.of] at hwait ⊢
      split_ifs at hwait ⊢
      rfl
  rw [htimedOut]
  cases next' with
  | none => rfl
  | some cue' =>
    obtain ⟨-, cue, rfl, hle⟩ := hbefore cue' rfl
    have hlate : ¬(cue.1 ≤ now ∨ cue.1 ≤ deadline) := by
      intro hcomes
      simp only [Wait.of, if_pos hcomes] at hwait
      cases hwait
    simp only [Wait.of, if_neg fun hcomes => hlate (h.comes_of_comes hle hcomes)]

theorem Lags.of_later (h : Lags n now deadline cancelAt) (hbefore : ComesBefore n now next next')
    (hwait : (Wait.of now deadline cancelAt next).consumes = false) :
    Wait.of n deadline cancelAt next' = Wait.of now deadline cancelAt next := by
  cases cancelAt with
  | none => exact h.of_later_uncancelled hbefore hwait
  | some cancel =>
    rw [Wait.of_some] at hwait
    rw [Wait.of_some, Wait.of_some]
    by_cases hnow : cancel ≤ now
    · obtain rfl : now = n := (h.uncancelled cancel rfl).resolve_right (Nat.not_lt_of_le hnow)
      rw [if_pos hnow, if_pos hnow]
    · rw [if_neg hnow, if_neg fun hn => hnow (hn.trans h.le)]
      rw [if_neg hnow] at hwait
      -- Cancelled before the earlier arrival has come, it is cancelled before the later one too.
      by_cases hends : cancel < (Wait.of now deadline none next).ends
      · rw [if_pos hends, if_pos (hends.trans_le (h.ends_le hbefore))]
      · rw [if_neg hends] at hwait
        rw [h.of_later_uncancelled hbefore hwait]

theorem Wait.lt_of_consumes {cancel : Time}
    (h : (Wait.of now deadline (some cancel) next).consumes = true) :
    now < cancel ∧ (Wait.of now deadline (some cancel) next).ends ≤ cancel := by
  rw [Wait.of_some] at h ⊢
  split_ifs at h ⊢ with hnow hends
  exact ⟨Nat.lt_of_not_le hnow, Nat.le_of_not_lt hends⟩

theorem Lags.interrupted (h : Lags n now deadline cancelAt) {due : Time} {reception : Reception}
    (hwait : Wait.of now deadline cancelAt next = ⟨reception, max now due, true⟩)
    (hcancelAt : cancelAt ≠ some due) : Lags n (max now due) deadline cancelAt where
  le := h.le.trans (le_max_left _ _)
  le_deadline := by
    have hfits := (Wait.fits now deadline cancelAt next).2.1
    rwa [hwait, ← h.max_eq] at hfits
  uncancelled := by
    rintro cancel rfl
    obtain ⟨hnow, hends⟩ := Wait.lt_of_consumes (congrArg Wait.consumes hwait)
    rw [hwait] at hends
    have hne : due ≠ cancel := fun heq => hcancelAt (congrArg some heq.symm)
    have hdue : due < cancel := lt_of_le_of_ne ((le_max_right _ _).trans hends) hne
    exact .inr (max_lt hnow hdue)

end Wait

namespace Script

variable {α : Type} {s s₁ s' d' : Script} {x : Inquiry} {accept : Accept α} {e : Endpoint}
  {n : Time} {reception : Reception} {heard : List (Time × Reception)} {verdict : Verdict α}
  {result : Except Failure α}

/-- A script whose cues are in order, and that is not cancelled at the very time of one. -/
structure Ordered (s : Script) : Prop where
  pairwise : s.queue.Pairwise fun c c' => c.due ≤ c'.due ∧ c.afterSends ≤ c'.afterSends
  cancelAt : ∀ c ∈ s.queue, s.cancelAt ≠ some c.due

/-- A script in which strangers have been heard since a time at which nothing else was to hear. -/
structure Distracted (n : Time) (s : Script) : Prop where
  lags : Lags n s.now s.deadline s.cancelAt
  now_le : ∀ c ∈ s.queue, s.now ≤ max n c.due

def deaf (e : Endpoint) (n : Time) (s : Script) : Script := { s.without e with now := n }

theorem Ordered.receive (h : Ordered s) (hreceive : Transport.receive s = (reception, s₁)) :
    Ordered s₁ := by
  have hqueue := queue_receive hreceive
  obtain ⟨_, _, rfl⟩ := receive_eq hreceive
  exact ⟨h.pairwise.sublist hqueue.sublist, fun c hc => h.cancelAt c (hqueue.subset hc)⟩

theorem comesBefore_of_isForeign {c : Cue} {rest : List Cue} (hordered : Ordered s)
    (h : Distracted n s) (hqueue : s.queue = c :: rest)
    (hforeign : c.isForeign e = true) :
    ComesBefore n s.now s.next? (s.deaf e n).next? := by
  rintro ⟨due, arrival⟩ hnext
  obtain ⟨c', rest', hqueue', hsends, rfl, -⟩ := next?_eq_some hnext
  have hmem : c' ∈ rest := by
    have hfilter : c' ∈ s.queue.filter fun c => !c.isForeign e := by
      show c' ∈ (s.deaf e n).queue
      rw [hqueue']
      exact List.mem_cons_self
    rw [hqueue, List.filter_cons_of_neg (by simp [hforeign])] at hfilter
    exact (List.mem_filter.mp hfilter).1
  have hle := List.rel_of_pairwise_cons (hqueue ▸ hordered.pairwise) hmem
  refine ⟨h.now_le c' (hqueue ▸ List.mem_cons_of_mem _ hmem), (c.due, c.arrival), ?_, hle.1⟩
  have hready : c.afterSends ≤ s.sends := hle.2.trans hsends
  simp [next?, hqueue, hready]

theorem not_consumes_of_isForeign {c : Cue} {rest : List Cue} (hqueue : s.queue = c :: rest)
    (hforeign : c.isForeign e = true)
    (hown : (Wait.of s.now s.deadline s.cancelAt s.next?).reception.isForeign e = false) :
    (Wait.of s.now s.deadline s.cancelAt s.next?).consumes = false := by
  obtain ⟨due, arrival, hnext, hwait⟩ | ⟨hconsumes, -⟩ :=
    Wait.of_cases s.now s.deadline s.cancelAt s.next?
  · obtain ⟨c', rest', hqueue', -, -, rfl⟩ := next?_eq_some hnext
    cases hqueue.symm.trans hqueue'
    rw [hwait] at hown
    cases hown.symm.trans hforeign
  · exact hconsumes

theorem wait_deaf (hordered : Ordered s) (h : Distracted n s)
    (hown : (Wait.of s.now s.deadline s.cancelAt s.next?).reception.isForeign e = false) :
    Wait.of n s.deadline s.cancelAt (s.deaf e n).next? =
        Wait.of s.now s.deadline s.cancelAt s.next? ∧
      ((Wait.of s.now s.deadline s.cancelAt s.next?).consumes = true →
        (s.deaf e n).queue.drop 1 =
          (s.queue.drop 1).filter fun c => !c.isForeign e) := by
  have hdue : ∀ cue ∈ s.next?, s.now ≤ max n cue.1 := by
    rintro ⟨due, arrival⟩ hnext
    obtain ⟨c, rest, hqueue, -, rfl, -⟩ := next?_eq_some hnext
    exact h.now_le c (hqueue ▸ List.mem_cons_self)
  rcases hqueue : s.queue with _ | ⟨c, rest⟩
  · have hnext : (s.deaf e n).next? = s.next? := by simp [next?, deaf, without, hqueue]
    rw [hnext]
    exact ⟨h.lags.of_same hdue, fun _ => by simp [deaf, without, hqueue]⟩
  · by_cases hforeign : c.isForeign e = true
    · have hconsumes := not_consumes_of_isForeign hqueue hforeign hown
      refine ⟨h.lags.of_later (comesBefore_of_isForeign hordered h hqueue hforeign) hconsumes, ?_⟩
      exact fun h => absurd (hconsumes.symm.trans h) Bool.false_ne_true
    · have hdeaf : (s.deaf e n).queue = c :: rest.filter fun c => !c.isForeign e := by
        show s.queue.filter _ = _
        rw [hqueue, List.filter_cons_of_pos (by simpa using hforeign)]
      have hnext : (s.deaf e n).next? = s.next? := by
        simp only [next?, hdeaf, hqueue]
        rfl
      rw [hnext, hdeaf]
      exact ⟨h.lags.of_same hdue, fun _ => rfl⟩

theorem receive_own (hordered : Ordered s) (h : Distracted n s)
    (hreceive : Transport.receive s = (reception, s₁)) (hown : reception.isForeign e = false) :
    Transport.receive (s.deaf e n) = (reception, s₁.without e) := by
  cases (receive_of_wait rfl).symm.trans hreceive
  obtain ⟨hwait, hqueue⟩ := wait_deaf hordered h hown
  generalize Wait.of s.now s.deadline s.cancelAt s.next? = wait at hown hwait hqueue
  have hnoted := filter_noted e [(wait.ends, wait.reception)]
  rw [List.filter_cons_of_pos (by simpa using hown), List.filter_nil] at hnoted
  rw [receive_of_wait hwait, without, Journal.without_followedBy, hnoted]
  cases hconsumes : wait.consumes with
  | true => rw [hqueue hconsumes]; rfl
  | false => rfl

theorem receive_foreign (hordered : Ordered s) (h : Distracted n s)
    (hreceive : Transport.receive s = (reception, s₁)) (hforeign : reception.isForeign e = true) :
    Distracted n s₁ ∧ s₁.deaf e n = s.deaf e n := by
  cases (receive_of_wait rfl).symm.trans hreceive
  obtain ⟨due, arrival, hnext, hwait⟩ | ⟨-, harrival⟩ :=
    Wait.of_cases s.now s.deadline s.cancelAt s.next?
  · obtain ⟨c, rest, hqueue, -, rfl, rfl⟩ := next?_eq_some hnext
    have hmem : c ∈ s.queue := hqueue ▸ List.mem_cons_self
    have hstranger : c.isForeign e = true := by rwa [hwait] at hforeign
    rw [hwait]
    constructor
    · refine ⟨h.lags.interrupted hwait (hordered.cancelAt c hmem), fun c' hc' => ?_⟩
      have hrest : c' ∈ rest := by simpa [hqueue] using hc'
      have hle := List.rel_of_pairwise_cons (hqueue ▸ hordered.pairwise) hrest
      have hnow := h.now_le c' (hqueue ▸ List.mem_cons_of_mem _ hrest)
      exact max_le hnow (hle.1.trans (le_max_right _ _))
    · have hnoted := filter_noted e [(max s.now c.due, c.arrival.reception)]
      rw [List.filter_cons_of_neg (by simpa [Cue.isForeign] using hstranger), List.filter_nil]
        at hnoted
      have hqueue' : (s.queue.filter fun c => !c.isForeign e) =
          rest.filter fun c => !c.isForeign e := by
        rw [hqueue, List.filter_cons_of_neg (by simpa using hstranger)]
      rw [deaf, deaf, without, without, Journal.without_followedBy, hnoted, hqueue', hqueue]
      rfl
  · cases harrival.symm.trans (Reception.isArrival_of_isForeign hforeign)

theorem listens_deaf (h : Listens x accept s heard verdict s') (hordered : Ordered s)
    (hdistracted : Distracted n s) :
    Ordered s' ∧ ∃ heard', Listens x accept (s.deaf (.ofSocket x.target) n) heard' verdict
      (s'.without (.ofSocket x.target)) := by
  -- What is ignored is a stranger's, and then only one of the two moves on.
  induction h with
  | @ends s s' reception verdict hreceive hjudge hverdict =>
    have hown : reception.isForeign (.ofSocket x.target) = false :=
      Bool.eq_false_iff.mpr fun hforeign =>
        hverdict (hjudge.symm.trans (judge_eq_ignore_iff.mpr hforeign))
    have hdeaf := receive_own hordered hdistracted hreceive hown
    exact ⟨hordered.receive hreceive, _, .ends hdeaf hjudge hverdict⟩
  | ignores hreceive hjudge _ ih =>
    have hforeign := judge_eq_ignore_iff.mp hjudge
    obtain ⟨hstill, hsame⟩ := receive_foreign hordered hdistracted hreceive hforeign
    rw [← hsame]
    exact ih (hordered.receive hreceive) hstill

theorem launch_without (e : Endpoint) (x : Inquiry) (s : Script) :
    x.launch (s.without e) = (x.launch s).without e := by
  have hkept : ((Attempt.ofRound ⟨x, s, []⟩).entries x.pacing x.target x.request).filter
      (fun entry => !entry.2.isForeign e) =
        (Attempt.ofRound ⟨x, s, []⟩).entries x.pacing x.target x.request := by
    simp only [Attempt.entries, List.filter_append]
    split_ifs <;> rfl
  rw [launch_eq, launch_eq]
  simp only [without, Journal.without_followedBy, hkept]
  rfl

theorem Ordered.launch (h : Ordered s) (x : Inquiry) : Ordered (x.launch s) := by
  rw [launch_eq]
  exact ⟨h.pairwise, h.cancelAt⟩

theorem distracted_launch (x : Inquiry) (s : Script) : Distracted s.now (x.launch s) := by
  rw [launch_eq]
  exact ⟨.refl _ _ _, fun _ _ => le_max_left _ _⟩

theorem listens_without (hordered : Ordered s)
    (h : Listens x accept (x.launch s) heard verdict s') :
    Ordered s' ∧ ∃ heard', Listens x accept (x.launch (s.without (.ofSocket x.target))) heard'
      verdict (s'.without (.ofSocket x.target)) := by
  have hnow : (x.launch s).now = s.now := now_launch x s
  have hdeaf : (x.launch s).deaf (.ofSocket x.target) s.now =
      x.launch (s.without (.ofSocket x.target)) := by
    rw [launch_without, deaf, ← hnow]
    rfl
  rw [← hdeaf]
  exact listens_deaf h (hordered.launch x) (distracted_launch x s)

theorem rounds_without {rounds : List (Round Script)} (hordered : Ordered s)
    (h : Rounds accept x s rounds result s') :
    ∃ rounds', Rounds accept x (s.without (.ofSocket x.target)) rounds' result
      (s'.without (.ofSocket x.target)) := by
  induction h with
  | spent hleft => exact ⟨[], .spent hleft⟩
  | settled hleft hlistens =>
    obtain ⟨-, heard', hwithout⟩ := listens_without hordered hlistens
    exact ⟨_, .settled hleft hwithout⟩
  | failed hleft hlistens _ ih =>
    obtain ⟨hordered', heard', hwithout⟩ := listens_without hordered hlistens
    obtain ⟨rounds', hrounds'⟩ := ih hordered'
    exact ⟨_, .failed hleft hwithout hrounds'⟩

theorem exists_rounds_of_without {rounds : List (Round Script)} (hordered : Ordered s)
    (h : Rounds accept x (s.without (.ofSocket x.target)) rounds result d') :
    ∃ rounds' s', Rounds accept x s rounds' result s' ∧ d' = s'.without (.ofSocket x.target) := by
  generalize hd : s.without (.ofSocket x.target) = d at h
  induction h generalizing s with
  | spent hleft =>
    subst hd
    exact ⟨[], s, .spent hleft, rfl⟩
  | @settled x d d' heard result hleft hlistens =>
    subst hd
    obtain ⟨heard', verdict, s', hwith⟩ := exists_listens x accept (x.launch s)
    obtain ⟨-, _, hwithout⟩ := listens_without hordered hwith
    obtain ⟨-, rfl, rfl⟩ := hlistens.unique hwithout
    exact ⟨_, s', .settled hleft hwith, rfl⟩
  | @failed x d d₁ d' heard rounds result hleft hlistens _ ih =>
    subst hd
    obtain ⟨heard', verdict, s₁, hwith⟩ := exists_listens x accept (x.launch s)
    obtain ⟨hordered₁, _, hwithout⟩ := listens_without hordered hwith
    obtain ⟨-, rfl, rfl⟩ := hlistens.unique hwithout
    obtain ⟨rounds', s', hrounds', hend⟩ := ih hordered₁ rfl
    exact ⟨_, s', .failed hleft hwith hrounds', hend⟩

/-- Whether an inquiry ends, in what, at what time, and after which sends and deadlines is the same
with the datagrams of strangers and without them. -/
theorem inquire_without (pacing : Pacing) (target : SocketAddress) (request : Bytes)
    (accept : Accept α) (hordered : Ordered s) (result : Except Failure α) (d' : Script) :
    (∃ patience, (Client.inquire pacing target request accept patience).run
        (s.without (.ofSocket target)) = some (result, d')) ↔
      ∃ s', (∃ patience, (Client.inquire pacing target request accept patience).run s =
        some (result, s')) ∧ d' = s'.without (.ofSocket target) := by
  simp only [run_inquire_iff]
  constructor
  · rintro ⟨rounds, h⟩
    obtain ⟨rounds', s', h', hend⟩ := exists_rounds_of_without hordered h
    exact ⟨s', ⟨rounds', h'⟩, hend⟩
  · rintro ⟨s', ⟨rounds, h⟩, rfl⟩
    exact rounds_without hordered h

def crowdedScript : Script :=
  .new [⟨5, 0, .datagram [1] roughStranger⟩, ⟨35, 1, .datagram [1] roughStranger⟩,
    ⟨40, 2, .datagram [0] roughServer⟩, ⟨40, 3, .datagram [1] roughStranger⟩,
    ⟨60, 4, .datagram [1] roughServerMapped⟩, ⟨70, 4, .datagram [1] roughStranger⟩] [2] none

theorem inquire_without_crowded : ∃ s' d',
    (Client.inquire (.uniform 100 35) roughServer [7] acceptsOne 9).run crowdedScript =
        some (.ok [1], s') ∧
      (∃ patience, (Client.inquire (.uniform 100 35) roughServer [7] acceptsOne patience).run
        (crowdedScript.without (.ofSocket roughServer)) = some (.ok [1], d')) ∧
      d' = s'.without (.ofSocket roughServer) ∧ d'.now = 60 := by
  have hordered : Ordered crowdedScript := ⟨by decide, fun _ _ => nofun⟩
  have hend : ∃ s', (Client.inquire (.uniform 100 35) roughServer [7] acceptsOne 9).run
      crowdedScript = some (.ok [1], s') ∧ s'.now = 60 := ⟨_, rfl, rfl⟩
  obtain ⟨s', hrun, hnow⟩ := hend
  have hwithout := (inquire_without (.uniform 100 35) roughServer [7] acceptsOne hordered (.ok [1])
    (s'.without (.ofSocket roughServer))).mpr ⟨s', ⟨9, hrun⟩, rfl⟩
  exact ⟨s', _, hrun, hwithout, rfl, hnow⟩

end Script
end ServerDiscovery.Simulation
