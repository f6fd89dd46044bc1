import Mathlib.Algebra.BigOperators.Group.List.Basic
import Mathlib.Data.List.Count
import Mathlib.Data.Nat.Cast.Basic
import ServerDiscovery.Proofs.Survey.Shift

/-! The steps of workers one by one. A query ends at one step and its result is put in at another
one, and in between any other worker may move. Whatever is counted over the workers, what they share
and the log keeps its balance, so that nothing is lost or done twice in any order. -/

namespace ServerDiscovery.Survey

open Client

inductive Stage (ι ρ : Type) where
  | hired
  | idle
  | asking (job : ι)
  /-- Its query has ended, and the result is not put in yet. -/
  | told (job : ι) (r : Except Failure ρ)
  | gone

/-- A worker with addresses of its own; without them it takes addresses off the queue. -/
structure Member (ι ρ : Type) where
  own : Option (List ι)
  stage : Stage ι ρ

inductive Event (ι ρ : Type) where
  | opened
  | refused (f : Failure)
  | took (job : ι)
  | answered (job : ι) (r : Except Failure ρ)
  | reported
  | failed (f : Failure)
  | left

variable {ι ρ : Type}

def Crew.next? (c : Crew ι ρ) : Option (List ι) → Option (ι × Option (List ι) × Crew ι ρ)
  | some [] => none
  | some (job :: own) => some (job, some own, c)
  | none => c.pull.map fun (job, c) => (job, none, c)

inductive Step (outcome : ι → Except Failure ρ → Prop) :
    Member ι ρ → Crew ι ρ → Event ι ρ → Member ι ρ → Crew ι ρ → Prop where
  | opens (own : Option (List ι)) (c : Crew ι ρ) :
      Step outcome ⟨own, .hired⟩ c .opened ⟨own, .idle⟩ c
  | refused (own : Option (List ι)) (c : Crew ι ρ) (f : Failure) :
      Step outcome ⟨own, .hired⟩ c (.refused f) ⟨own, .gone⟩ (c.close (.error f))
  | takes {own own' : Option (List ι)} {c c' : Crew ι ρ} {job : ι} :
      c.next? own = some (job, own', c') →
      Step outcome ⟨own, .idle⟩ c (.took job) ⟨own', .asking job⟩ c'
  | leaves {own : Option (List ι)} {c : Crew ι ρ} : c.next? own = none →
      Step outcome ⟨own, .idle⟩ c .left ⟨own, .gone⟩ (c.close (.ok ()))
  | ends (own : Option (List ι)) (c : Crew ι ρ) {job : ι} {r : Except Failure ρ} : outcome job r →
      Step outcome ⟨own, .asking job⟩ c (.answered job r) ⟨own, .told job r⟩ c
  | reports (own : Option (List ι)) {c c' : Crew ι ρ} (job : ι) {r : Except Failure ρ} :
      c.report r = .ok c' → Step outcome ⟨own, .told job r⟩ c .reported ⟨own, .idle⟩ c'
  | fails (own : Option (List ι)) {c : Crew ι ρ} (job : ι) {r : Except Failure ρ} {f : Failure} :
      c.report r = .error f →
      Step outcome ⟨own, .told job r⟩ c (.failed f) ⟨own, .gone⟩ (c.close (.error f))

/-- The work of a crew up to some moment: all that happened in it, what the workers are at, and what
they share. The workers share a queue, and each has addresses of its own or none. -/
inductive Interleaving (outcome : ι → Except Failure ρ → Prop) (queue : List ι)
    (owns : List (Option (List ι))) :
    List (Event ι ρ) → List (Member ι ρ) → Crew ι ρ → Prop where
  | start : Interleaving outcome queue owns [] (owns.map fun own => ⟨own, .hired⟩) (.start queue)
  | step {log : List (Event ι ρ)} {before after : List (Member ι ρ)} {m m' : Member ι ρ}
      {c c' : Crew ι ρ} {e : Event ι ρ} :
      Interleaving outcome queue owns log (before ++ m :: after) c → Step outcome m c e m' c' →
      Interleaving outcome queue owns (log ++ [e]) (before ++ m' :: after) c'

namespace Event

def isOpened : Event ι ρ → Bool
  | opened => true
  | _ => false

def isRefused : Event ι ρ → Bool
  | refused _ => true
  | _ => false

def isFailed : Event ι ρ → Bool
  | failed _ => true
  | _ => false

def answer? : Event ι ρ → Option (ι × Except Failure ρ)
  | answered job r => some (job, r)
  | _ => none

def ending? : Event ι ρ → Option (Except Failure Unit)
  | refused f | failed f => some (.error f)
  | left => some (.ok ())
  | _ => none

end Event

def answers (log : List (Event ι ρ)) : List (ι × Except Failure ρ) := log.filterMap Event.answer?

namespace Stage

def isHired : Stage ι ρ → Bool
  | hired => true
  | _ => false

def job? : Stage ι ρ → Option ι
  | asking job => some job
  | _ => none

def news? : Stage ι ρ → Option (Except Failure ρ)
  | told _ r => some r
  | _ => none

def hand : Stage ι ρ → Hand ι
  | hired => .hired
  | idle => .idle
  | asking job | told job _ => .asking job
  | gone => .gone

def steps : Stage ι ρ → Nat
  | asking _ => 3
  | hired | told _ _ => 2
  | idle => 1
  | gone => 0

end Stage

namespace Member

def jobs (m : Member ι ρ) : List ι := m.own.getD [] ++ m.stage.job?.toList

def steps (m : Member ι ρ) : Nat := 3 * (m.own.getD []).length + m.stage.steps

end Member

def isCancelled : Except Failure ρ → Bool
  | .error .cancelled => true
  | _ => false

theorem eq_of_isCancelled {r : Except Failure ρ} (h : isCancelled r = true) :
    r = .error .cancelled := by
  rcases r with f | x
  · cases f <;> first | rfl | cases h
  · cases h

namespace Crew

variable {c c' : Crew ι ρ} {own own' : Option (List ι)} {job : ι}

theorem next?_eq_some (h : c.next? own = some (job, own', c')) :
    (own = none ∧ own' = none ∧ c.queue = job :: c'.queue ∧ c'.found = c.found ∧
        c'.endings = c.endings) ∨
      ∃ rest, own = some (job :: rest) ∧ own' = some rest ∧ c' = c := by
  unfold next? at h
  split at h
  · cases h
  · cases h
    exact .inr ⟨_, rfl, rfl, rfl⟩
  · obtain ⟨⟨job', c₁⟩, hpull, heq⟩ := Option.map_eq_some_iff.mp h
    cases heq
    exact .inl ⟨rfl, rfl, pull_eq_some hpull⟩

theorem next?_eq_none_iff : c.next? own = none ↔ own = some [] ∨ own = none ∧ c.queue = [] := by
  unfold next? pull
  rcases own with _ | _ | ⟨job, own⟩
  · cases c.queue <;> simp
  · simp
  · simp

theorem next?_eq_none_of_suffix (hsuffix : c'.queue <:+ c.queue) (h : c.next? own = none) :
    c'.next? own = none := by
  rw [next?_eq_none_iff] at h ⊢
  refine h.imp_right fun ⟨hown, hqueue⟩ => ⟨hown, ?_⟩
  rw [hqueue] at hsuffix
  exact List.suffix_nil.mp hsuffix

end Crew

variable {outcome : ι → Except Failure ρ → Prop} {queue : List ι} {owns : List (Option (List ι))}
  {log : List (Event ι ρ)} {members : List (Member ι ρ)} {m m' : Member ι ρ} {c c' : Crew ι ρ}
  {e : Event ι ρ}

theorem answers_concat (log : List (Event ι ρ)) (e : Event ι ρ) :
    answers (log ++ [e]) = answers log ++ e.answer?.toList := by
  unfold answers
  rw [List.filterMap_append]
  cases h : e.answer? <;> simp [h]

theorem Crew.isCancelled_of_report {r : Except Failure ρ} (h : c.report r = .ok c') :
    isCancelled r = false := by
  rcases r with f | x
  · cases f <;> first | rfl | cases h
  · rfl

namespace Step

theorem count_jobs [BEq ι] [LawfulBEq ι] (hs : Step outcome m c e m' c') (x : ι) :
    c'.queue.count x + m'.jobs.count x + (e.answer?.toList.map Prod.fst).count x
      = c.queue.count x + m.jobs.count x := by
  cases hs with
  | opens => rfl
  | refused => rfl
  | leaves => rfl
  | takes hnext =>
    rcases Crew.next?_eq_some hnext with ⟨rfl, rfl, hqueue, -, -⟩ | ⟨rest, rfl, rfl, rfl⟩
    · simp [hqueue, Member.jobs, Stage.job?, Event.answer?, List.count_cons]
    · simp [Member.jobs, Stage.job?, Event.answer?, List.count_cons, List.count_append]
  | ends => simp [Member.jobs, Stage.job?, Event.answer?, List.count_append, Nat.add_assoc]
  | reports own job hr =>
    rw [(Crew.report_eq_ok hr).1]
    rfl
  | fails => rfl

theorem count_found [BEq ρ] [LawfulBEq ρ] (hs : Step outcome m c e m' c') (x : ρ) :
    c'.found.count x + (m'.stage.news?.bind Except.toOption).toList.count x =
      c.found.count x + (m.stage.news?.bind Except.toOption).toList.count x +
        (e.answer?.bind fun q => q.2.toOption).toList.count x := by
  cases hs with
  | opens => rfl
  | refused => rfl
  | leaves => rfl
  | takes hnext =>
    rcases Crew.next?_eq_some hnext with ⟨rfl, rfl, -, hfound, -⟩ | ⟨rest, rfl, rfl, rfl⟩
    · rw [hfound]
      rfl
    · rfl
  | ends => exact rfl
  | reports own job hr =>
    rw [(Crew.report_eq_ok hr).2.1, List.count_append]
    rfl
  | fails own job hr =>
    obtain rfl := Crew.report_eq_error hr
    rfl

theorem endings_eq (hs : Step outcome m c e m' c') :
    c'.endings = c.endings ++ e.ending?.toList := by
  cases hs with
  | opens | ends => exact (List.append_nil _).symm
  | refused | leaves | fails => rfl
  | takes hnext =>
    rcases Crew.next?_eq_some hnext with ⟨-, -, -, -, hendings⟩ | ⟨rest, -, -, rfl⟩
    · exact hendings.trans (List.append_nil _).symm
    · exact (List.append_nil _).symm
  | reports own job hr => exact (Crew.report_eq_ok hr).2.2.trans (List.append_nil _).symm

theorem queue_suffix (hs : Step outcome m c e m' c') : c'.queue <:+ c.queue := by
  cases hs with
  | opens | ends | refused | leaves | fails => exact List.suffix_rfl
  | takes hnext =>
    rcases Crew.next?_eq_some hnext with ⟨-, -, hqueue, -, -⟩ | ⟨rest, -, -, rfl⟩
    · exact ⟨[_], hqueue.symm⟩
    · exact List.suffix_rfl
  | reports own job hr => exact (Crew.report_eq_ok hr).1 ▸ List.suffix_rfl

theorem isNone_own (hs : Step outcome m c e m' c') : m'.own.isNone = m.own.isNone := by
  cases hs with
  | opens | ends | refused | leaves | fails | reports => rfl
  | takes hnext =>
    rcases Crew.next?_eq_some hnext with ⟨rfl, rfl, -, -, -⟩ | ⟨rest, rfl, rfl, rfl⟩ <;> rfl

theorem steps_eq (hs : Step outcome m c e m' c') :
    3 * c'.queue.length + m'.steps + (1 + (e.isRefused || e.isFailed).toNat)
      = 3 * c.queue.length + m.steps := by
  cases hs with
  | opens | ends | refused | leaves | fails => rfl
  | takes hnext =>
    rcases Crew.next?_eq_some hnext with ⟨rfl, rfl, hqueue, -, -⟩ | ⟨rest, rfl, rfl, rfl⟩
    · rw [hqueue]
      rfl
    · rfl
  | reports own job hr =>
    rw [(Crew.report_eq_ok hr).1]
    rfl

theorem opened_eq (hs : Step outcome m c e m' c') :
    m'.stage.isHired.toNat + (e.isOpened || e.isRefused).toNat = m.stage.isHired.toNat := by
  cases hs <;> rfl

theorem failed_eq (hs : Step outcome m c e m' c') :
    (m'.stage.news?.any isCancelled).toNat + e.isFailed.toNat =
      (m.stage.news?.any isCancelled).toNat + (e.answer?.any fun q => isCancelled q.2).toNat := by
  cases hs with
  | opens | refused | takes | leaves => rfl
  | ends => exact Nat.add_comm _ 0
  | reports own job hr =>
    have hnot := Crew.isCancelled_of_report hr
    simp [Stage.news?, Event.isFailed, Event.answer?, hnot]
  | fails own job hr =>
    obtain rfl := Crew.report_eq_error hr
    rfl

end Step

namespace Interleaving

theorem queue_suffix (h : Interleaving outcome queue owns log members c) : c.queue <:+ queue := by
  induction h with
  | start => exact List.suffix_rfl
  | step _ hs ih => exact hs.queue_suffix.trans ih

theorem map_isNone_own (h : Interleaving outcome queue owns log members c) :
    (members.map fun m => m.own.isNone) = owns.map Option.isNone := by
  induction h with
  | start =>
    rw [List.map_map]
    rfl
  | step _ hs ih =>
    rw [List.map_append, List.map_cons] at ih ⊢
    rw [hs.isNone_own, ih]

theorem endings_eq (h : Interleaving outcome queue owns log members c) :
    c.endings = log.filterMap Event.ending? := by
  induction h with
  | start => rfl
  | @step _ _ _ _ _ _ _ e _ hs ih =>
    rw [hs.endings_eq, ih, List.filterMap_append]
    cases he : e.ending? <;> simp [he]

theorem outcome_of_mem (h : Interleaving outcome queue owns log members c) :
    ∀ q ∈ answers log, outcome q.1 q.2 := by
  induction h with
  | start => exact List.forall_mem_nil _
  | step _ hs ih =>
    rw [answers_concat]
    refine List.forall_mem_append.mpr ⟨ih, ?_⟩
    cases hs with
    | opens | refused | takes | leaves | reports | fails => exact List.forall_mem_nil _
    | ends _ _ ho => exact List.forall_mem_singleton.mpr ho

theorem balance {K : Crew ι ρ → Nat} {M : Member ι ρ → Nat} {G H : List (Event ι ρ) → Nat}
    (hstep : ∀ {m c e m' c'}, Step outcome m c e m' c' → ∀ log,
      K c' + M m' + G (log ++ [e]) + H log = K c + M m + G log + H (log ++ [e]))
    (h : Interleaving outcome queue owns log members c) :
    K c + (members.map M).sum + G log + H [] =
      K (.start queue) + (owns.map fun own => M ⟨own, .hired⟩).sum + G [] + H log := by
  induction h with
  | start =>
    rw [List.map_map]
    rfl
  | @step log _ _ _ _ _ _ _ _ hs ih =>
    have hmoved := hstep hs log
    simp only [List.map_append, List.map_cons, List.sum_append, List.sum_cons] at ih ⊢
    omega

theorem perm_jobs (h : Interleaving outcome queue owns log members c) :
    (c.queue ++ members.flatMap Member.jobs ++ (answers log).map Prod.fst).Perm
      (queue ++ owns.flatMap (·.getD [])) := by
  classical
  -- The order is nobody's, so it is counted how often each address is where.
  refine List.perm_iff_count.mpr fun x => ?_
  have hbalance := h.balance (K := fun c => c.queue.count x) (M := fun m => m.jobs.count x)
    (G := fun log => ((answers log).map Prod.fst).count x) (H := fun _ => 0) fun hs log => by
      have hmoved := hs.count_jobs x
      rw [answers_concat, List.map_append, List.count_append]
      omega
  have hstart : (owns.map fun own => (Member.mk own (.hired : Stage ι ρ)).jobs.count x).sum =
      (owns.flatMap (·.getD [])).count x := by
    simp [List.count_flatMap, Member.jobs, Stage.job?, Function.comp_def]
  rw [hstart] at hbalance
  simpa [List.count_append, List.count_flatMap, Function.comp_def, Crew.start, answers,
    Nat.add_assoc] using hbalance

theorem perm_found (h : Interleaving outcome queue owns log members c) :
    (c.found ++ members.filterMap fun m => m.stage.news?.bind Except.toOption).Perm
      ((answers log).filterMap fun q => q.2.toOption) := by
  classical
  refine List.perm_iff_count.mpr fun x => ?_
  have hbalance := h.balance (K := fun c => c.found.count x)
    (M := fun m => (m.stage.news?.bind Except.toOption).toList.count x) (G := fun _ => 0)
    (H := fun log => ((answers log).filterMap fun q => q.2.toOption).count x)
    fun {_ _ e _ _} hs log => by
      have hmoved := hs.count_found x
      have hnew : e.answer?.toList.filterMap (fun q => q.2.toOption) =
          (e.answer?.bind fun q => q.2.toOption).toList := by
        cases e.answer? with
        | none => rfl
        | some q => cases h : q.2.toOption <;> simp [h]
      rw [answers_concat, List.filterMap_append, List.count_append, hnew]
      omega
  have hstart : (owns.map fun own =>
      (((Member.mk own (.hired : Stage ι ρ)).stage.news?.bind Except.toOption).toList.count x)).sum
        = 0 := by
    simp [Stage.news?]
  rw [hstart] at hbalance
  rw [List.count_append, List.filterMap_eq_flatMap_toList, List.count_flatMap]
  simpa [answers, Function.comp_def, Crew.start] using hbalance

theorem countP_concat {α : Type} (p : α → Bool) (as : List α) (a : α) :
    (as ++ [a]).countP p = as.countP p + (p a).toNat := by
  rw [List.countP_append, List.countP_singleton]
  cases p a <;> rfl

theorem length_le (h : Interleaving outcome queue owns log members c) :
    log.length ≤ 3 * (queue ++ owns.flatMap (·.getD [])).length + 2 * owns.length := by
  have hbalance := h.balance (K := fun c => 3 * c.queue.length) (M := Member.steps)
    (G := fun log => log.length + log.countP fun e => e.isRefused || e.isFailed) (H := fun _ => 0)
    fun hs log => by
      have hmoved := hs.steps_eq
      rw [List.length_append, List.length_singleton, countP_concat]
      omega
  have hstart : ∀ owns : List (Option (List ι)),
      (owns.map fun own => (Member.mk own (.hired : Stage ι ρ)).steps).sum =
        3 * (owns.flatMap (·.getD [])).length + 2 * owns.length := by
    intro owns
    induction owns with
    | nil => rfl
    | cons own owns ih =>
      rw [List.map_cons, List.sum_cons, ih, List.flatMap_cons, List.length_append, List.length_cons]
      simp only [Member.steps, Stage.steps]
      omega
  rw [hstart] at hbalance
  rw [List.length_append]
  have hqueue : (Crew.start queue : Crew ι ρ).queue.length = queue.length := rfl
  simp only [hqueue, List.length_nil, List.countP_nil] at hbalance
  omega

theorem countP_isOpened_le (h : Interleaving outcome queue owns log members c) :
    log.countP Event.isOpened ≤ owns.length := by
  have hbalance := h.balance (K := fun _ => 0) (M := fun m => m.stage.isHired.toNat)
    (G := fun log => log.countP fun e => e.isOpened || e.isRefused) (H := fun _ => 0)
    fun hs log => by
      have hmoved := hs.opened_eq
      rw [countP_concat]
      omega
  have hstart : (owns.map fun own => (Member.mk own (.hired : Stage ι ρ)).stage.isHired.toNat).sum =
      owns.length := by
    simp [Stage.isHired]
  have hmore : log.countP Event.isOpened ≤ log.countP fun e => e.isOpened || e.isRefused :=
    List.countP_mono_left fun e _ he => by rw [he]; rfl
  rw [hstart] at hbalance
  simp only [List.countP_nil] at hbalance
  omega

theorem forall_members {P : Crew ι ρ → Member ι ρ → Prop}
    (hstart : ∀ own, P (.start queue) ⟨own, .hired⟩)
    (hmoved : ∀ {m c e m' c'}, Step outcome m c e m' c' → P c' m')
    (hkept : ∀ {m c e m' c'}, Step outcome m c e m' c' → ∀ m₀, P c m₀ → P c' m₀)
    (h : Interleaving outcome queue owns log members c) : ∀ m ∈ members, P c m := by
  induction h with
  | start => exact List.forall_mem_map.mpr fun own _ => hstart own
  | @step _ before after m _ _ _ _ _ hs ih =>
    intro m₀ hm₀
    rcases List.mem_cons.mp (List.perm_middle.subset hm₀) with rfl | hm₀
    · exact hmoved hs
    · have hother := List.perm_middle.symm.subset (List.mem_cons_of_mem m hm₀)
      exact hkept hs m₀ (ih m₀ hother)

theorem next?_of_gone (h : Interleaving outcome queue owns log members c)
    (hok : ∀ e ∈ c.endings, e = .ok ()) :
    ∀ m ∈ members, m.stage = .gone → c.next? m.own = none := by
  intro m hm hgone
  refine h.forall_members (P := fun c m => (∀ e ∈ c.endings, e = .ok ()) → m.stage = .gone →
    c.next? m.own = none) (fun _ _ => nofun) ?_ ?_ m hm hok hgone
  · intro m c e m' c' hs hok hgone
    obtain ⟨-, hending⟩ := List.forall_mem_append.mp (hs.endings_eq ▸ hok)
    cases hs with
    | opens | takes | ends | reports => cases hgone
    | refused | fails => cases hending _ List.mem_cons_self
    | leaves hnext =>
      refine Crew.next?_eq_none_of_suffix ?_ hnext
      exact List.suffix_rfl
  · intro m c e m' c' hs m₀ hbefore hok hgone
    have hearlier := (List.forall_mem_append.mp (hs.endings_eq ▸ hok)).1
    exact Crew.next?_eq_none_of_suffix hs.queue_suffix (hbefore hearlier hgone)

theorem outcome_of_told (h : Interleaving outcome queue owns log members c) :
    ∀ m ∈ members, ∀ job r, m.stage = .told job r → outcome job r := by
  refine h.forall_members (P := fun _ m => ∀ job r, m.stage = .told job r → outcome job r)
    (fun _ => nofun) ?_ fun _ _ htold => htold
  intro m c e m' c' hs job r hstage
  cases hs with
  | ends _ _ ho =>
    cases hstage
    exact ho
  | _ => cases hstage

/-- Some worker got no socket, or was cancelled in the midst of a query. -/
def Hindered (log : List (Event ι ρ)) : Prop :=
  (∃ f, .refused f ∈ log) ∨ ∃ job, (job, .error .cancelled) ∈ answers log

theorem queue_eq_nil (h : Interleaving outcome queue owns log members c)
    (hshared : queue ≠ [] → none ∈ owns) (hidle : ∀ m ∈ members, c.next? m.own = none) :
    c.queue = [] := by
  by_cases hempty : queue = []
  · exact List.suffix_nil.mp (hempty ▸ h.queue_suffix)
  · have hsome : true ∈ members.map fun m => m.own.isNone := by
      rw [h.map_isNone_own]
      exact List.mem_map.mpr ⟨none, hshared hempty, rfl⟩
    obtain ⟨m, hm, hown⟩ := List.mem_map.mp hsome
    rcases Crew.next?_eq_none_iff.mp (hidle m hm) with hown' | ⟨-, hqueue⟩
    · rw [hown'] at hown
      cases hown
    · exact hqueue

section Over

variable (hover : ∀ m ∈ members, m.stage = .gone)
include hover

theorem countP_isFailed (h : Interleaving outcome queue owns log members c) :
    log.countP Event.isFailed = (answers log).countP fun q => isCancelled q.2 := by
  have hbalance := h.balance (K := fun _ => 0)
    (M := fun m => (m.stage.news?.any isCancelled).toNat)
    (G := fun log => log.countP Event.isFailed)
    (H := fun log => (answers log).countP fun q => isCancelled q.2) fun {_ _ e _ _} hs log => by
      have hmoved := hs.failed_eq
      have hnew : e.answer?.toList.countP (fun q => isCancelled q.2) =
          (e.answer?.any fun q => isCancelled q.2).toNat := by
        cases e.answer? with
        | none => rfl
        | some q => exact (countP_concat _ [] q).trans (Nat.zero_add _)
      rw [countP_concat, answers_concat, List.countP_append, hnew]
      omega
  have hstart : (owns.map fun own =>
      ((Member.mk own (.hired : Stage ι ρ)).stage.news?.any isCancelled).toNat).sum = 0 := by
    simp [Stage.news?]
  have hend : (members.map fun m => (m.stage.news?.any isCancelled).toNat).sum = 0 := by
    apply List.sum_eq_zero
    intro n hn
    obtain ⟨m, hm, rfl⟩ := List.mem_map.mp hn
    rw [hover m hm]
    rfl
  rw [hstart, hend] at hbalance
  simpa [answers] using hbalance

theorem forall_endings_iff (h : Interleaving outcome queue owns log members c) :
    (∀ e ∈ c.endings, e = .ok ()) ↔ ¬ Hindered log := by
  have hcount := h.countP_isFailed hover
  have hmem : ∀ e, e ∈ c.endings ↔ ∃ event ∈ log, event.ending? = some e := by
    intro e
    rw [h.endings_eq, List.mem_filterMap]
  constructor
  · rintro hok (⟨f, hf⟩ | ⟨job, hjob⟩)
    · cases hok _ ((hmem _).mpr ⟨_, hf, rfl⟩)
    · have hpos : 0 < log.countP Event.isFailed := by
        rw [hcount]
        exact List.countP_pos_iff.mpr ⟨_, hjob, rfl⟩
      obtain ⟨event, hevent, hfailed⟩ := List.countP_pos_iff.mp hpos
      cases event with
      | failed f => cases hok _ ((hmem _).mpr ⟨_, hevent, rfl⟩)
      | _ => cases hfailed
  · intro hnot e he
    obtain ⟨event, hevent, hending⟩ := (hmem e).mp he
    cases event with
    | refused f => exact absurd (.inl ⟨f, hevent⟩) hnot
    | failed f =>
      have hpos : 0 < (answers log).countP fun q => isCancelled q.2 := by
        rw [← hcount]
        exact List.countP_pos_iff.mpr ⟨_, hevent, rfl⟩
      obtain ⟨⟨job, r⟩, hq, hcancelled⟩ := List.countP_pos_iff.mp hpos
      obtain rfl := eq_of_isCancelled hcancelled
      exact absurd (.inr ⟨job, hq⟩) hnot
    | left => exact (Option.some.inj hending).symm
    | _ => cases hending

theorem jobs_eq_nil (hidle : ∀ m ∈ members, c.next? m.own = none) :
    members.flatMap Member.jobs = [] := by
  refine List.flatMap_eq_nil_iff.mpr fun m hm => ?_
  have hown : m.own.getD [] = [] := by
    rcases Crew.next?_eq_none_iff.mp (hidle m hm) with hown | ⟨hown, -⟩ <;> rw [hown] <;> rfl
  rw [Member.jobs, hown, hover m hm]
  rfl

theorem settled (h : Interleaving outcome queue owns log members c) (hnot : ¬ Hindered log)
    (hshared : queue ≠ [] → none ∈ owns) :
    ((answers log).map Prod.fst).Perm (queue ++ owns.flatMap (·.getD [])) ∧
      ∃ rs, c.result = .ok rs ∧ rs.Perm ((answers log).filterMap fun q => q.2.toOption) := by
  have hok := (h.forall_endings_iff hover).mpr hnot
  have hidle : ∀ m ∈ members, c.next? m.own = none :=
    fun m hm => h.next?_of_gone hok m hm (hover m hm)
  have hnews : (members.filterMap fun m => m.stage.news?.bind Except.toOption) = [] := by
    refine List.filterMap_eq_nil_iff.mpr fun m hm => ?_
    rw [hover m hm]
    rfl
  have hperm := h.perm_jobs
  have hfound := h.perm_found
  rw [h.queue_eq_nil hshared hidle, jobs_eq_nil hover hidle, List.nil_append, List.nil_append]
    at hperm
  rw [hnews, List.append_nil] at hfound
  exact ⟨hperm, c.found, Crew.result_eq_ok_iff.mpr ⟨hok, rfl⟩, hfound⟩

theorem result_of_hindered (h : Interleaving outcome queue owns log members c)
    (hhindered : Hindered log) : ∃ f, c.result = .error f := by
  cases hresult : c.result with
  | error f => exact ⟨f, rfl⟩
  | ok rs =>
    have hok := (Crew.result_eq_ok_iff.mp hresult).1
    exact absurd hhindered ((h.forall_endings_iff hover).mp hok)

end Over

theorem goes_on (h : Interleaving outcome queue owns log members c)
    (hends : ∀ job ∈ queue ++ owns.flatMap (·.getD []), ∃ r, outcome job r) (hm : m ∈ members)
    (hleft : m.stage ≠ .gone) :
    ∃ e members' c', Interleaving outcome queue owns (log ++ [e]) members' c' := by
  obtain ⟨before, after, rfl⟩ := List.append_of_mem hm
  have hstep : ∃ e m' c', Step outcome m c e m' c' := by
    obtain ⟨own, stage⟩ := m
    cases stage with
    | hired => exact ⟨_, _, _, .opens own c⟩
    | idle =>
      cases hnext : c.next? own with
      | none => exact ⟨_, _, _, .leaves hnext⟩
      | some next => exact ⟨_, _, _, .takes hnext⟩
    | asking job =>
      have hjob : job ∈ queue ++ owns.flatMap (·.getD []) := by
        apply h.perm_jobs.subset
        simp [Member.jobs, Stage.job?]
      obtain ⟨r, hr⟩ := hends job hjob
      exact ⟨_, _, _, .ends own c hr⟩
    | told job r =>
      cases hreport : c.report r with
      | ok c' => exact ⟨_, _, _, .reports own job hreport⟩
      | error f => exact ⟨_, _, _, .fails own job hreport⟩
    | gone => exact absurd rfl hleft
  obtain ⟨e, m', c', hs⟩ := hstep
  exact ⟨e, before ++ m' :: after, c', h.step hs⟩

theorem step_of_perm {rest : List (Member ι ρ)}
    (h : Interleaving outcome queue owns log members c) (hperm : members.Perm (m :: rest))
    (hs : Step outcome m c e m' c') :
    ∃ members', Interleaving outcome queue owns (log ++ [e]) members' c' ∧
      members'.Perm (m' :: rest) := by
  obtain ⟨before, after, rfl⟩ := List.append_of_mem (hperm.mem_iff.mpr List.mem_cons_self)
  have hrest : (before ++ after).Perm rest := (List.perm_middle.symm.trans hperm).cons_inv
  exact ⟨before ++ m' :: after, h.step hs, List.perm_middle.trans (hrest.cons m')⟩

/-! ### Shifts -/

theorem shift {n : Nat} (h : Interleaving outcome queue (List.replicate n none) log members c) :
    ∃ done, Shift outcome queue n (members.map fun m => m.stage.hand) c done := by
  induction h with
  | start =>
    have hhired : (List.replicate n none).map (fun own => (Member.mk own (.hired : Stage ι ρ))) =
      List.replicate n ⟨none, .hired⟩ := List.map_replicate
    refine ⟨[], ?_⟩
    rw [hhired, List.map_replicate]
    exact .start
  | @step _ before after m m' c c' e hbefore hs ih =>
    obtain ⟨done, hshift⟩ := ih
    have hown : m.own = none := by
      have hnone : m.own.isNone ∈
          (List.replicate n (none : Option (List ι))).map Option.isNone := by
        rw [← hbefore.map_isNone_own]
        exact List.mem_map.mpr ⟨m, by simp, rfl⟩
      rw [List.map_replicate] at hnone
      exact Option.isNone_iff_eq_none.mp (List.eq_of_mem_replicate hnone)
    have htold := hbefore.outcome_of_told m (by simp)
    have hturn : ∀ {new c'} {h' : Hand ι}, Turn outcome m.stage.hand c new h' c' →
        Shift outcome queue n (before.map (fun m => m.stage.hand) ++ h' ::
          after.map fun m => m.stage.hand) c' (done ++ new) := by
      intro new c' h' hturn
      rw [List.map_append, List.map_cons] at hshift
      exact hshift.turn hturn
    rw [List.map_append, List.map_cons]
    cases hs with
    | opens => exact ⟨_, hturn (.opens _)⟩
    | refused own f => exact ⟨_, hturn (.refused _ _)⟩
    | takes hnext =>
      obtain rfl := hown
      obtain ⟨⟨job, crew⟩, hpull, heq⟩ := Option.map_eq_some_iff.mp hnext
      cases heq
      exact ⟨_, hturn (.takes hpull)⟩
    | leaves hnext =>
      obtain rfl := hown
      exact ⟨_, hturn (.leaves (Option.map_eq_none_iff.mp hnext))⟩
    | ends own ho =>
      rw [List.map_append, List.map_cons] at hshift
      exact ⟨done, hshift⟩
    | reports own job hr => exact ⟨_, hturn (.reports (htold _ _ rfl) hr)⟩
    | fails own job hr => exact ⟨_, hturn (.fails (htold _ _ rfl) hr)⟩

end Interleaving
end ServerDiscovery.Survey
