import Mathlib.Algebra.Ring.Nat
import Mathlib.Data.List.Basic
import Mathlib.Data.List.Perm.Basic
import ServerDiscovery.Survey.Crew

/-! A crew at work, in any interleaving. At each step one worker, whichever it is, does the next
thing that it has to do; what a query ends with is left to a relation. However they take turns, each
address is queried once, and what they have found when all have gone is what the queries brought. -/

namespace ServerDiscovery.Survey

open Client

inductive Hand (ι : Type) where
  | hired
  | idle
  | asking (job : ι)
  | gone

variable {ι ρ : Type}

def Hand.job? : Hand ι → Option ι
  | asking job => some job
  | hired | idle | gone => none

def Hand.isGone : Hand ι → Bool
  | gone => true
  | hired | idle | asking _ => false

def inHand (hands : List (Hand ι)) : List ι := hands.filterMap Hand.job?

theorem inHand_middle (before after : List (Hand ι)) (h : Hand ι) :
    inHand (before ++ h :: after) = inHand before ++ h.job?.toList ++ inHand after := by
  unfold inHand
  rw [List.filterMap_append, List.filterMap_cons]
  cases h.job? <;> simp

theorem countP_isGone_middle (before after : List (Hand ι)) (h : Hand ι) :
    (before ++ h :: after).countP Hand.isGone
      = before.countP Hand.isGone + after.countP Hand.isGone + if h.isGone then 1 else 0 := by
  rw [List.countP_append, List.countP_cons, Nat.add_assoc]

/-- What one worker does next, and the queries that it completes by that. -/
inductive Turn (outcome : ι → Except Failure ρ → Prop) :
    Hand ι → Crew ι ρ → List (ι × Except Failure ρ) → Hand ι → Crew ι ρ → Prop where
  | opens (c : Crew ι ρ) : Turn outcome .hired c [] .idle c
  | refused (c : Crew ι ρ) (f : Failure) : Turn outcome .hired c [] .gone (c.close (.error f))
  | takes {c c' : Crew ι ρ} {job : ι} : c.pull = some (job, c') →
      Turn outcome .idle c [] (.asking job) c'
  | leaves {c : Crew ι ρ} : c.pull = none → Turn outcome .idle c [] .gone (c.close (.ok ()))
  | reports {c c' : Crew ι ρ} {job : ι} {r : Except Failure ρ} : outcome job r →
      c.report r = .ok c' → Turn outcome (.asking job) c [(job, r)] .idle c'
  | fails {c : Crew ι ρ} {job : ι} {r : Except Failure ρ} {f : Failure} : outcome job r →
      c.report r = .error f → Turn outcome (.asking job) c [(job, r)] .gone (c.close (.error f))

/-- A shift from its start to some moment: what the workers are at, what they share, and the
queries completed so far with their results. -/
inductive Shift (outcome : ι → Except Failure ρ → Prop) (targets : List ι) (workers : Nat) :
    List (Hand ι) → Crew ι ρ → List (ι × Except Failure ρ) → Prop where
  | start : Shift outcome targets workers (List.replicate workers .hired) (.start targets) []
  | turn {before after : List (Hand ι)} {h h' : Hand ι} {c c' : Crew ι ρ}
      {done new : List (ι × Except Failure ρ)} :
      Shift outcome targets workers (before ++ h :: after) c done → Turn outcome h c new h' c' →
      Shift outcome targets workers (before ++ h' :: after) c' (done ++ new)

namespace Crew

variable {c c' : Crew ι ρ} {r : Except Failure ρ} {f : Failure}

theorem pull_eq_some {job : ι} (h : c.pull = some (job, c')) :
    c.queue = job :: c'.queue ∧ c'.found = c.found ∧ c'.endings = c.endings := by
  unfold pull at h
  split at h
  · cases h
  · rename_i hqueue
    cases h
    exact ⟨hqueue, rfl, rfl⟩

theorem pull_eq_none (h : c.pull = none) : c.queue = [] := by
  unfold pull at h
  split at h
  · assumption
  · cases h

theorem report_eq_ok (h : c.report r = .ok c') :
    c'.queue = c.queue ∧ c'.found = c.found ++ r.toOption.toList ∧ c'.endings = c.endings := by
  unfold report tolerate at h
  cases r with
  | ok x => cases h; exact ⟨rfl, rfl, rfl⟩
  | error f => cases f <;> cases h <;> exact ⟨rfl, (List.append_nil _).symm, rfl⟩

theorem report_eq_error (h : c.report r = .error f) : r = .error .cancelled := by
  unfold report tolerate at h
  cases r with
  | ok x => cases h
  | error f => cases f <;> first | rfl | cases h

theorem result_eq_ok_iff {rs : List ρ} :
    c.result = .ok rs ↔ (∀ e ∈ c.endings, e = .ok ()) ∧ rs = c.found := by
  unfold result
  induction c.endings with
  | nil => simp [Functor.map, Except.map, pure, Except.pure, eq_comm]
  | cons e es ih =>
    rw [List.mapM_cons]
    cases e with
    | error f => simp [Functor.map, Except.map, bind, Except.bind]
    | ok u =>
      cases hes : es.mapM id with
      | error f => simpa [hes, Functor.map, Except.map, bind, Except.bind] using ih
      | ok us => simpa [hes, Functor.map, Except.map, bind, Except.bind, pure, Except.pure] using ih

end Crew

/-- Each address is in the queue, in a worker's hand or done, and nothing else is found than what
queries brought. -/
structure Accounted (outcome : ι → Except Failure ρ → Prop) (targets : List ι)
    (hands : List (Hand ι)) (c : Crew ι ρ) (done : List (ι × Except Failure ρ)) : Prop where
  jobs : (c.queue ++ inHand hands ++ done.map Prod.fst).Perm targets
  found : c.found = done.filterMap fun q => q.2.toOption
  outcomes : ∀ q ∈ done, outcome q.1 q.2
  endings : c.endings.length = hands.countP Hand.isGone
  queue : .ok () ∈ c.endings → c.queue = []

variable {outcome : ι → Except Failure ρ → Prop} {targets : List ι} {workers : Nat}
  {before after hands : List (Hand ι)} {h h' : Hand ι} {c c' : Crew ι ρ}
  {done new : List (ι × Except Failure ρ)}

theorem Accounted.start (outcome : ι → Except Failure ρ → Prop) (targets : List ι) (workers : Nat) :
    Accounted outcome targets (List.replicate workers .hired) (.start targets) [] where
  jobs := by
    have hnone : inHand (List.replicate workers (.hired : Hand ι)) = [] := by
      simp [inHand, Hand.job?]
    simp [Crew.start, hnone]
  found := rfl
  outcomes := by simp
  endings := by
    rw [List.countP_replicate]
    rfl
  queue := by simp [Crew.start]

theorem Accounted.jobs_turn [DecidableEq ι]
    (hacc : Accounted outcome targets (before ++ h :: after) c done)
    (hcount : ∀ x, c'.queue.count x + h'.job?.toList.count x + (new.map Prod.fst).count x
      = c.queue.count x + h.job?.toList.count x) :
    (c'.queue ++ inHand (before ++ h' :: after) ++ (done ++ new).map Prod.fst).Perm targets := by
  have hjobs := List.perm_iff_count.mp hacc.jobs
  rw [inHand_middle] at hjobs ⊢
  refine List.perm_iff_count.mpr fun x => ?_
  have hx := hjobs x
  have hcx := hcount x
  simp only [List.map_append, List.count_append] at hx hcx ⊢
  omega

theorem Accounted.after_turn [DecidableEq ι]
    (hacc : Accounted outcome targets (before ++ h :: after) c done)
    (hcount : ∀ x, c'.queue.count x + h'.job?.toList.count x + (new.map Prod.fst).count x
      = c.queue.count x + h.job?.toList.count x)
    (hfound : c'.found = c.found ++ new.filterMap fun q => q.2.toOption)
    (hnew : ∀ q ∈ new, outcome q.1 q.2) (hgone : h.isGone = false)
    (hendings : c'.endings.length = c.endings.length + if h'.isGone then 1 else 0)
    (hqueue : .ok () ∈ c'.endings → c'.queue = []) :
    Accounted outcome targets (before ++ h' :: after) c' (done ++ new) where
  jobs := hacc.jobs_turn hcount
  found := by rw [hfound, hacc.found, List.filterMap_append]
  outcomes := List.forall_mem_append.mpr ⟨hacc.outcomes, hnew⟩
  endings := by
    have hbefore := hacc.endings
    rw [countP_isGone_middle, hgone] at hbefore
    rw [countP_isGone_middle, hendings, hbefore]
    rfl
  queue := hqueue

theorem Accounted.turn (hacc : Accounted outcome targets (before ++ h :: after) c done)
    (hturn : Turn outcome h c new h' c') :
    Accounted outcome targets (before ++ h' :: after) c' (done ++ new) := by
  classical
  have hnothing : ∀ q ∈ ([] : List (ι × Except Failure ρ)), outcome q.1 q.2 :=
    List.forall_mem_nil _
  cases hturn with
  | opens =>
    exact hacc.after_turn (fun _ => rfl) (List.append_nil _).symm hnothing rfl rfl hacc.queue
  | refused f =>
    refine hacc.after_turn (fun _ => rfl) (List.append_nil _).symm hnothing rfl ?_ ?_
    · simp [Crew.close, Hand.isGone]
    · intro hok
      exact hacc.queue (by simpa [Crew.close] using hok)
  | takes hpull =>
    obtain ⟨hq, hf, he⟩ := Crew.pull_eq_some hpull
    refine hacc.after_turn (fun x => ?_) (hf.trans (List.append_nil _).symm) hnothing rfl
      (congrArg _ he) fun hok => ?_
    · rw [hq]
      simp [Hand.job?, List.count_cons]
    · -- Whoever has left of his own accord found the queue empty, and it was not.
      have hnil := hacc.queue (he ▸ hok)
      rw [hq] at hnil
      cases hnil
  | leaves hpull =>
    have hnil := Crew.pull_eq_none hpull
    refine hacc.after_turn (fun _ => rfl) (List.append_nil _).symm hnothing rfl ?_ ?_
    · simp [Crew.close, Hand.isGone]
    · exact fun _ => hnil
  | reports ho hr =>
    obtain ⟨hq, hf, he⟩ := Crew.report_eq_ok hr
    refine hacc.after_turn (fun x => ?_) ?_ (List.forall_mem_singleton.mpr ho) rfl
      (congrArg _ he) ?_
    · rw [hq]
      simp [Hand.job?, List.count_cons]
    · rw [hf]
      cases h : Except.toOption _ <;> simp [h]
    · rw [hq, he]
      exact hacc.queue
  | fails ho hr =>
    obtain rfl := Crew.report_eq_error hr
    refine hacc.after_turn (fun x => ?_) ?_ (List.forall_mem_singleton.mpr ho) rfl ?_ fun hok => ?_
    · simp [Crew.close, Hand.job?, List.count_cons]
    · simp [Crew.close, Except.toOption]
    · simp [Crew.close, Hand.isGone]
    · exact hacc.queue (by simpa [Crew.close] using hok)

theorem Shift.accounted (hshift : Shift outcome targets workers hands c done) :
    Accounted outcome targets hands c done := by
  induction hshift with
  | start => exact .start outcome targets workers
  | turn _ hturn ih => exact ih.turn hturn

theorem Shift.length_hands (hshift : Shift outcome targets workers hands c done) :
    hands.length = workers := by
  induction hshift with
  | start => exact List.length_replicate
  | turn _ _ ih => simpa using ih

theorem Shift.mono {outcome' : ι → Except Failure ρ → Prop}
    (hshift : Shift outcome targets workers hands c done)
    (hdone : ∀ q ∈ done, outcome' q.1 q.2) : Shift outcome' targets workers hands c done := by
  induction hshift with
  | start => exact .start
  | turn _ hturn ih =>
    obtain ⟨hbefore, hnew⟩ := List.forall_mem_append.mp hdone
    refine .turn (ih hbefore) ?_
    cases hturn with
    | opens => exact .opens _
    | refused => exact .refused _ _
    | takes hpull => exact .takes hpull
    | leaves hpull => exact .leaves hpull
    | reports _ hr => exact .reports (hnew _ List.mem_cons_self) hr
    | fails _ hr => exact .fails (hnew _ List.mem_cons_self) hr

theorem Shift.settled (hshift : Shift outcome targets workers hands c done) (hworkers : 0 < workers)
    (hgone : ∀ h ∈ hands, h.isGone = true) {rs : List ρ} (hresult : c.result = .ok rs) :
    (done.map Prod.fst).Perm targets ∧ (∀ q ∈ done, outcome q.1 q.2) ∧
      rs = done.filterMap fun q => q.2.toOption := by
  obtain ⟨hjobs, hfound, houtcomes, hendings, hqueue⟩ := hshift.accounted
  obtain ⟨hok, rfl⟩ := Crew.result_eq_ok_iff.mp hresult
  have hnone : inHand hands = [] := by
    refine List.filterMap_eq_nil_iff.mpr fun h hmem => ?_
    have hg := hgone h hmem
    cases h with
    | gone => rfl
    | hired | idle | asking => cases hg
  -- There was a worker, it has gone, and not by an error: it found the queue empty.
  have hempty : c.queue = [] := by
    rw [List.countP_eq_length.mpr hgone, hshift.length_hands] at hendings
    obtain ⟨e, es, hes⟩ := List.exists_cons_of_length_pos (hendings ▸ hworkers)
    have he : e ∈ c.endings := hes ▸ List.mem_cons_self
    exact hqueue (hok e he ▸ he)
  rw [hempty, hnone] at hjobs
  exact ⟨hjobs, houtcomes, hfound⟩

def Hand.turns : Hand ι → Nat
  | hired | asking _ => 2
  | idle => 1
  | gone => 0

def turnsLeft (hands : List (Hand ι)) (c : Crew ι ρ) : Nat :=
  2 * c.queue.length + (hands.map Hand.turns).sum

theorem Turn.turnsLeft_lt (hturn : Turn outcome h c new h' c') (before after : List (Hand ι)) :
    turnsLeft (before ++ h' :: after) c' < turnsLeft (before ++ h :: after) c := by
  have hfewer : 2 * c'.queue.length + h'.turns < 2 * c.queue.length + h.turns := by
    cases hturn with
    | opens => exact Nat.lt_succ_self _
    | refused f => exact Nat.lt_add_of_pos_right Nat.zero_lt_two
    | takes hpull =>
      rw [(Crew.pull_eq_some hpull).1, List.length_cons]
      exact Nat.lt_succ_self _
    | leaves => exact Nat.lt_succ_self _
    | reports _ hr =>
      rw [(Crew.report_eq_ok hr).1]
      exact Nat.lt_succ_self _
    | fails => exact Nat.lt_add_of_pos_right Nat.zero_lt_two
  simp only [turnsLeft, List.map_append, List.map_cons, List.sum_append, List.sum_cons]
  omega

theorem Turn.next (hends : ∀ job, ∃ r, outcome job r ∧ r ≠ .error .cancelled)
    (hgone : h.isGone = false) (c : Crew ι ρ) (hok : ∀ e ∈ c.endings, e = .ok ()) :
    ∃ new h' c', Turn outcome h c new h' c' ∧ ∀ e ∈ c'.endings, e = .ok () := by
  cases h with
  | hired => exact ⟨_, _, _, .opens c, hok⟩
  | idle =>
    cases hpull : c.pull with
    | none =>
      refine ⟨_, _, _, .leaves hpull, ?_⟩
      exact List.forall_mem_append.mpr ⟨hok, List.forall_mem_singleton.mpr rfl⟩
    | some p =>
      obtain ⟨job, c'⟩ := p
      refine ⟨_, _, _, .takes hpull, ?_⟩
      rw [(Crew.pull_eq_some hpull).2.2]
      exact hok
  | asking job =>
    obtain ⟨r, hr, hcancelled⟩ := hends job
    cases hreport : c.report r with
    | ok c' =>
      refine ⟨_, _, _, .reports hr hreport, ?_⟩
      rw [(Crew.report_eq_ok hreport).2.2]
      exact hok
    | error f => exact absurd (Crew.report_eq_error hreport) hcancelled
  | gone => cases hgone

theorem Shift.finishes (hends : ∀ job, ∃ r, outcome job r ∧ r ≠ .error .cancelled)
    (hshift : Shift outcome targets workers hands c done) (hok : ∀ e ∈ c.endings, e = .ok ()) :
    ∃ hands' c' done', Shift outcome targets workers hands' c' done' ∧
      (∀ h ∈ hands', h.isGone = true) ∧ ∀ e ∈ c'.endings, e = .ok () := by
  induction hn : turnsLeft hands c using Nat.strongRecOn generalizing hands c done with
  | ind n ih =>
    by_cases hall : ∀ h ∈ hands, h.isGone = true
    · exact ⟨hands, c, done, hshift, hall, hok⟩
    · push Not at hall
      obtain ⟨h, hmem, hgone⟩ := hall
      obtain ⟨before, after, rfl⟩ := List.append_of_mem hmem
      obtain ⟨new, h', c', hturn, hok'⟩ := Turn.next hends (eq_false_of_ne_true hgone) c hok
      have hlt := hturn.turnsLeft_lt before after
      exact ih _ (hn ▸ hlt) (hshift.turn hturn) hok' rfl

theorem Shift.lone {job : ι} {r : Except Failure ρ} (hr : outcome job r)
    (hreport : (Crew.start [] : Crew ι ρ).report r = .ok c) :
    Shift outcome [job] 1 [.gone] (c.close (.ok ())) [(job, r)] := by
  have hhired : Shift outcome [job] 1 ([] ++ .hired :: []) (.start [job]) [] := .start
  have hidle : Shift outcome [job] 1 ([] ++ .idle :: []) (.start [job]) ([] ++ []) :=
    hhired.turn (.opens _)
  have hasking := hidle.turn (.takes rfl)
  have hdone := hasking.turn (.reports hr hreport)
  have hempty : c.queue = [] := (Crew.report_eq_ok hreport).1
  have hpull : c.pull = none := by
    unfold Crew.pull
    rw [hempty]
  exact hdone.turn (.leaves hpull)

end ServerDiscovery.Survey
