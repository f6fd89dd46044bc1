import ServerDiscovery.Client.Session
import ServerDiscovery.Proofs.Client.LossyRecord
import ServerDiscovery.Proofs.Client.Provenance
import ServerDiscovery.Proofs.Survey.Shift
import ServerDiscovery.Proofs.Survey.Table
import ServerDiscovery.Survey.Settings

/-! Surveys whose passes are shifts of a crew, whatever the workers' turns and whatever their queries
end with. An endpoint is asked until it answers, and its first answer is what the survey gives. -/

namespace ServerDiscovery.Survey

open Client

/-- Something that may go in many ways, and that leaves a record of what it did. -/
def Trail (σ α : Type) : Type := σ → α → σ → Prop

instance : Monad (Trail σ) where
  pure a := fun s x s' => x = a ∧ s' = s
  bind t f := fun s y s'' => ∃ x s', t s x s' ∧ f x s' y s''

structure Pass where
  queries : List (Endpoint × Except Failure ServerRecord)
  result : Except Failure (List ServerRecord)

abbrev Outcomes := Nat → Endpoint → Except Failure ServerRecord

/-- A pass by any shift in which queries end as they are to in this pass. -/
def shiftOver (settings : Settings) (outcomes : Outcomes) (targets : List Endpoint) :
    ExceptT Failure (Trail (List Pass)) (List ServerRecord) :=
  ExceptT.mk fun log result log' => ∃ hands crew done,
    Shift (fun a r => r = outcomes log.length a) targets (settings.workers targets.length)
      hands crew done ∧
    (∀ h ∈ hands, h.isGone = true) ∧ result = crew.result ∧ log' = log ++ [⟨done, result⟩]

def firstAnswer (outcomes : Outcomes) : Nat → Endpoint → Option ServerRecord
  | 0, _ => none
  | n + 1, a => (firstAnswer outcomes n a).or (outcomes n a).toOption

/-- Whether a query of an endpoint may bring a record, in some session, whatever is received. -/
def MayAnswer (settings : Client.Settings) (patience : Nat) (a : Endpoint) (r : ServerRecord) :
    Prop :=
  ∃ es s m os s' m', History settings es s m ∧
    Dialogue.Course ((Query.recordOf patience a).dialogue s) m os (some (.ok r, s')) m'

section Outcomes

variable {outcomes : Outcomes} {a : Endpoint} {r : ServerRecord}

theorem firstAnswer_eq_none_iff {n : Nat} :
    firstAnswer outcomes n a = none ↔ ∀ i < n, (outcomes i a).isOk = false := by
  induction n with
  | zero => simp [firstAnswer]
  | succ n ih =>
    rw [firstAnswer, Option.or_eq_none_iff, ih]
    constructor
    · rintro ⟨hbefore, hnow⟩ i hi
      rcases Nat.lt_succ_iff_lt_or_eq.mp hi with hi | rfl
      · exact hbefore i hi
      · cases hr : outcomes i a with
        | ok x => rw [hr] at hnow; cases hnow
        | error f => rfl
    · intro hall
      refine ⟨fun i hi => hall i (Nat.lt_succ_of_lt hi), ?_⟩
      have hnow := hall n (Nat.lt_succ_self n)
      cases hr : outcomes n a with
      | ok x => rw [hr] at hnow; cases hnow
      | error f => rfl

theorem firstAnswer_eq_some_iff {n : Nat} :
    firstAnswer outcomes n a = some r ↔
      ∃ i < n, outcomes i a = .ok r ∧ ∀ j < i, (outcomes j a).isOk = false := by
  induction n with
  | zero => simp [firstAnswer]
  | succ n ih =>
    rw [firstAnswer, Option.or_eq_some_iff, ih, firstAnswer_eq_none_iff]
    constructor
    · rintro (⟨i, hi, h⟩ | ⟨hbefore, hnow⟩)
      · exact ⟨i, Nat.lt_succ_of_lt hi, h⟩
      · cases hr : outcomes n a with
        | ok x =>
          rw [hr] at hnow
          exact ⟨n, Nat.lt_succ_self n, hr.trans (congrArg _ (Option.some.inj hnow)), hbefore⟩
        | error f => rw [hr] at hnow; cases hnow
    · rintro ⟨i, hi, hr, hbefore⟩
      rcases Nat.lt_succ_iff_lt_or_eq.mp hi with hi | rfl
      · exact .inl ⟨i, hi, hr, hbefore⟩
      · exact .inr ⟨hbefore, by rw [hr]; rfl⟩

theorem firstAnswer_of_le {i n : Nat} (h : i ≤ n) (ha : (firstAnswer outcomes i a).isSome) :
    firstAnswer outcomes n a = firstAnswer outcomes i a := by
  induction n, h using Nat.le_induction with
  | base => rfl
  | succ n _ ih =>
    rw [firstAnswer, ih]
    exact Option.or_of_isSome ha

end Outcomes

section Address

variable {settings : Client.Settings} {patience : Nat} {a : Endpoint} {r : ServerRecord}

theorem MayAnswer.address (h : MayAnswer settings patience a r) : r.address = a.toString := by
  obtain ⟨es, s, m, os, s', m', hhistory, hc⟩ := h
  obtain ⟨htraced, -⟩ := (hhistory.aim a.toSocket).traced
  have hrecord := Query.always_record patience htraced (a := a.toSocket) rfl
  obtain ⟨-, hend⟩ := hrecord os _ m' hc
  obtain ⟨-, -, -, hok⟩ := hend _ rfl
  rw [(hok r rfl).record_address, Endpoint.ofSocket_toSocket]

theorem MayAnswer.of_fits (hr : r.Writable) (hfits : 18 + r.encode.length ≤ Packet.maxSize)
    (hlifetime : Token.expiryMargin < settings.tokenLifetime) (hbudget : 0 < settings.pacing.budget)
    (hpatience : 0 < patience) (a : Endpoint) :
    MayAnswer settings patience a { r.shown with address := a.toString } := by
  let config : Host.Settings := {}
  have hroom : 1 ≤ config.maxTokens := by decide
  have htime : Query.delay settings config.dropFirst < settings.pacing.budget := hbudget
  obtain ⟨s', l', hrun, -⟩ := Query.run_record_answered hr hfits hlifetime hroom (fun _ => rfl)
    (Nat.zero_le _) hpatience htime (fun _ => 0) (fun _ => 0) a.toSocket a.toSocket 0
  obtain ⟨os, hcourse⟩ := Dialogue.course_of_run hrun
  rw [Endpoint.ofSocket_toSocket] at hcourse
  exact ⟨[], _, _, os, s', _, .opened (fun _ => 0) _, hcourse⟩

theorem faithful_firstAnswer {A : List Endpoint} {outcomes : Outcomes} {n : Nat}
    (h : ∀ i < n, ∀ a ∈ A, ∀ r, outcomes i a = .ok r → MayAnswer settings patience a r) :
    Faithful A (firstAnswer outcomes n) := by
  intro a ha r hr
  obtain ⟨i, hi, hok, -⟩ := firstAnswer_eq_some_iff.mp hr
  exact (h i hi a ha r hok).address

end Address

section Passes

variable {settings : Settings} {patience : Nat} {A : List Endpoint} {outcomes : Outcomes}
  {log log' : List Pass}

/-- Each pass asked those whose earlier passes all failed, once each, and there were some. -/
def Fair (A : List Endpoint) (outcomes : Outcomes) (log : List Pass) : Prop :=
  ∀ i pass, log[i]? = some pass →
    (pass.queries.map Prod.fst).Perm (A.filter fun a => (firstAnswer outcomes i a).isNone) ∧
      ∃ a ∈ A, firstAnswer outcomes i a = none

theorem Fair.concat (h : Fair A outcomes log) {pass : Pass}
    (hpass : (pass.queries.map Prod.fst).Perm
      (A.filter fun a => (firstAnswer outcomes log.length a).isNone))
    (hsome : ∃ a ∈ A, firstAnswer outcomes log.length a = none) :
    Fair A outcomes (log ++ [pass]) := by
  intro i pass' hi
  rcases Nat.lt_trichotomy i log.length with hlt | rfl | hgt
  · rw [List.getElem?_append_left hlt] at hi
    exact h i pass' hi
  · rw [List.getElem?_concat_length] at hi
    cases hi
    exact ⟨hpass, hsome⟩
  · rw [List.getElem?_eq_none (by simp; omega)] at hi
    cases hi

theorem Settings.workers_pos (settings : Settings) {n : Nat} (h : 0 < n) :
    0 < settings.workers n := by
  unfold Settings.workers
  split <;> omega

theorem shiftOver_run {targets : List Endpoint} {result : Except Failure (List ServerRecord)}
    (h : (shiftOver settings outcomes targets).run log result log') (htargets : targets ≠ []) :
    ∃ done, log' = log ++ [⟨done, result⟩] ∧ ∀ rs, result = .ok rs →
      (done.map Prod.fst).Perm targets ∧
        rs.Perm (targets.filterMap fun a => (outcomes log.length a).toOption) := by
  obtain ⟨hands, crew, done, hshift, hgone, rfl, rfl⟩ := h
  refine ⟨done, rfl, fun rs hrs => ?_⟩
  have hworkers := settings.workers_pos (List.length_pos_iff.mpr htargets)
  obtain ⟨hjobs, houtcomes, rfl⟩ := hshift.settled hworkers hgone hrs
  refine ⟨hjobs, ?_⟩
  have hanswers : done.filterMap (fun q => q.2.toOption)
      = (done.map Prod.fst).filterMap fun a => (outcomes log.length a).toOption := by
    rw [List.filterMap_map]
    exact List.filterMap_congr fun q hq => by rw [houtcomes q hq]; rfl
  rw [hanswers]
  exact hjobs.filterMap _

theorem exists_shiftOver (settings : Settings) (targets : List Endpoint) (log : List Pass)
    (hcancelled : ∀ i a, outcomes i a ≠ .error .cancelled) :
    ∃ rs done, (shiftOver settings outcomes targets).run log (.ok rs) (log ++ [⟨done, .ok rs⟩]) := by
  have hends : ∀ a, ∃ r, r = outcomes log.length a ∧ r ≠ .error .cancelled :=
    fun a => ⟨_, rfl, hcancelled log.length a⟩
  have hstart : Shift (fun a r => r = outcomes log.length a) targets
      (settings.workers targets.length) _ _ _ := .start
  obtain ⟨hands, crew, done, hshift, hgone, hok⟩ := hstart.finishes hends (List.forall_mem_nil _)
  have hresult := Crew.result_eq_ok_iff.mpr ⟨hok, rfl⟩
  exact ⟨crew.found, done, hands, crew, done, hshift, hgone, hresult.symm, rfl⟩

theorem Fair.pass (hfair : Fair A outcomes log) (hA : A.Nodup) {rs rs₁ : List ServerRecord}
    (hmay : ∀ i ≤ log.length, ∀ a ∈ A, ∀ r, outcomes i a = .ok r →
      MayAnswer settings.serverClient patience a r)
    (hrs : rs.Perm (A.filterMap (firstAnswer outcomes log.length)))
    (hne : A.filter (fun a => (firstAnswer outcomes log.length a).isNone) ≠ [])
    (h : (shiftOver settings outcomes (A.filter fun a =>
      (firstAnswer outcomes log.length a).isNone)).run log (.ok rs₁) log') :
    log'.length = log.length + 1 ∧ Fair A outcomes log' ∧
      rs₁.foldl Table.put (.of rs) = .of (rs ++ rs₁) ∧
      (rs ++ rs₁).Perm (A.filterMap (firstAnswer outcomes log'.length)) := by
  obtain ⟨done, rfl, hdone⟩ := shiftOver_run h hne
  obtain ⟨hasked, hrs₁⟩ := hdone rs₁ rfl
  have hlen : (log ++ [(⟨done, .ok rs₁⟩ : Pass)]).length = log.length + 1 := by simp
  rw [hlen]
  have hsome : ∃ a ∈ A, firstAnswer outcomes log.length a = none := by
    obtain ⟨a, ha⟩ := List.exists_mem_of_ne_nil _ hne
    exact ⟨a, (List.mem_filter.mp ha).1, by simpa using (List.mem_filter.mp ha).2⟩
  have hbefore : Faithful A (firstAnswer outcomes log.length) :=
    faithful_firstAnswer fun i hi => hmay i (Nat.le_of_lt hi)
  have hnow : Faithful A fun a => (outcomes log.length a).toOption := by
    intro a ha r hr
    exact (hmay log.length le_rfl a ha r (Wire.eq_ok_of_toOption hr)).address
  exact ⟨rfl, hfair.concat hasked hsome, Table.foldl_put_of hA hbefore hnow hrs hrs₁⟩

/-- What so many passes have come to; fewer were made only because nobody is missing. -/
structure Passed (A : List Endpoint) (outcomes : Outcomes) (n : Nat) (log : List Pass)
    (rs : List ServerRecord) : Prop where
  fair : Fair A outcomes log
  found : rs.Perm (A.filterMap (firstAnswer outcomes log.length))
  length_le : log.length ≤ n
  complete : log.length < n → ∀ a ∈ A, (firstAnswer outcomes log.length a).isSome

theorem passes_run {N : Nat} (hA : A.Nodup)
    (hmay : ∀ i < N, ∀ a ∈ A, ∀ r, outcomes i a = .ok r →
      MayAnswer settings.serverClient patience a r)
    {n : Nat} {rs : List ServerRecord} {result : Except Failure Table} (hN : log.length + n ≤ N)
    (hfair : Fair A outcomes log)
    (hrs : rs.Perm (A.filterMap (firstAnswer outcomes log.length)))
    (h : (passes (shiftOver settings outcomes) A n (.of rs)).run log result log')
    (hok : ∀ pass ∈ log', pass.result.isOk = true) :
    ∃ rs', result = .ok (.of rs') ∧ Passed A outcomes (log.length + n) log' rs' := by
  induction n generalizing log rs with
  | zero =>
    obtain ⟨rfl, rfl⟩ := h
    exact ⟨rs, rfl, hfair, hrs, Nat.le_refl _, fun hlt => absurd hlt (Nat.lt_irrefl _)⟩
  | succ n ih =>
    have hfaithful : Faithful A (firstAnswer outcomes log.length) :=
      faithful_firstAnswer fun i hi => hmay i (by omega)
    -- The table says who is missing, since every record has its own endpoint's text for a key.
    have hmissing := Table.missing_of hfaithful hrs
    unfold passes at h
    rw [hmissing] at h
    split at h
    · rename_i hnil
      obtain ⟨rfl, rfl⟩ := h
      refine ⟨rs, rfl, hfair, hrs, by omega, fun _ a ha => ?_⟩
      have hnone := List.filter_eq_nil_iff.mp hnil a ha
      rw [Option.isSome_iff_ne_none]
      simpa using hnone
    · rename_i hne
      obtain ⟨x, log₁, hx, hrest⟩ := h
      cases x with
      | error f =>
        obtain ⟨-, rfl⟩ := hrest
        obtain ⟨done, rfl, -⟩ := shiftOver_run hx hne
        have hpass := hok ⟨done, .error f⟩ (by simp)
        cases hpass
      | ok rs₁ =>
        obtain ⟨hlen, hfair₁, hput, hperm⟩ :=
          hfair.pass hA (fun i hi => hmay i (by omega)) hrs hne hx
        have hthen : (passes (shiftOver settings outcomes) A n (.of (rs ++ rs₁))).run log₁ result
            log' := hput ▸ hrest
        obtain ⟨rs', hres, hpassed⟩ := ih (by omega) hfair₁ hperm hthen
        rw [hlen, Nat.add_right_comm] at hpassed
        exact ⟨rs', hres, hpassed⟩

/-- What a survey comes to: who was asked in which pass, and what it gives. -/
structure Converged (outcomes : Outcomes) (budget : Nat) (A : List Endpoint) (log : List Pass)
    (rs : List ServerRecord) : Prop where
  asked : ∀ i ≤ budget, ∀ a ∈ A, (∃ pass, log[i]? = some pass ∧ a ∈ pass.queries.map Prod.fst) ↔
    ∀ j < i, (outcomes j a).isOk = false
  once : ∀ pass ∈ log, (pass.queries.map Prod.fst).Nodup ∧ ∀ q ∈ pass.queries, q.1 ∈ A
  passes : ∀ i, i < log.length ↔ i ≤ budget ∧ ∃ a ∈ A, ∀ j < i, (outcomes j a).isOk = false
  /-- The first answer of each endpoint that ever answered, and nothing else. -/
  found : ∀ r, r ∈ rs ↔ ∃ a ∈ A, ∃ i ≤ budget, outcomes i a = .ok r ∧
    ∀ j < i, (outcomes j a).isOk = false
  distinct : (rs.map ServerRecord.address).Nodup
  named : ∀ i ≤ budget, ∀ a ∈ A, ∀ r, outcomes i a = .ok r → r.address = a.toString

namespace Passed

variable {n : Nat} {rs : List ServerRecord}

theorem lt_length_iff (hpassed : Passed A outcomes n log rs) (i : Nat) :
    i < log.length ↔ i < n ∧ ∃ a ∈ A, firstAnswer outcomes i a = none := by
  constructor
  · intro hi
    exact ⟨hi.trans_le hpassed.length_le, (hpassed.fair i _ (List.getElem?_eq_getElem hi)).2⟩
  · rintro ⟨hi, a, ha, hnone⟩
    by_contra hlen
    have hsome := hpassed.complete (by omega) a ha
    rw [← firstAnswer_of_le (Nat.le_of_not_lt hlen) hsome, hnone] at hsome
    cases hsome

theorem converged (hpassed : Passed A outcomes (n + 1) log rs) (hA : A.Nodup)
    (hmay : ∀ i < n + 1, ∀ a ∈ A, ∀ r, outcomes i a = .ok r →
      MayAnswer settings.serverClient patience a r) :
    Converged outcomes n A log rs := by
  obtain ⟨hfair, hrs, hle, hall⟩ := hpassed
  have hruns := lt_length_iff ⟨hfair, hrs, hle, hall⟩
  have hfirst : ∀ a ∈ A, firstAnswer outcomes (n + 1) a = firstAnswer outcomes log.length a := by
    intro a ha
    rcases hle.lt_or_eq with hlt | heq
    · exact firstAnswer_of_le hle (hall hlt a ha)
    · rw [heq]
  -- So the first answers in all passes are those in the passes that were made.
  have hfaithful := faithful_firstAnswer hmay
  rw [← List.filterMap_congr hfirst] at hrs
  refine ⟨?_, ?_, ?_, ?_, ?_, ?_⟩
  · intro i hi a ha
    rw [← firstAnswer_eq_none_iff]
    constructor
    · rintro ⟨pass, hpass, hmem⟩
      have hfilter := (hfair i pass hpass).1.mem_iff.mp hmem
      simpa using (List.mem_filter.mp hfilter).2
    · intro hnone
      have hlt := (hruns i).mpr ⟨Nat.lt_succ_of_le hi, a, ha, hnone⟩
      have hpass := List.getElem?_eq_getElem hlt
      refine ⟨_, hpass, (hfair i _ hpass).1.mem_iff.mpr (List.mem_filter.mpr ⟨ha, ?_⟩)⟩
      rw [hnone]
      rfl
  · intro pass hpass
    obtain ⟨i, hi⟩ := List.mem_iff_getElem?.mp hpass
    have hperm := (hfair i pass hi).1
    refine ⟨hperm.nodup_iff.mpr (hA.filter _), fun q hq => ?_⟩
    exact (List.mem_filter.mp (hperm.mem_iff.mp (List.mem_map_of_mem hq))).1
  · intro i
    rw [hruns i, Nat.lt_succ_iff]
    simp only [firstAnswer_eq_none_iff]
  · intro r
    rw [hrs.mem_iff, List.mem_filterMap]
    simp only [firstAnswer_eq_some_iff, Nat.lt_succ_iff]
  · exact ((hrs.map ServerRecord.address).nodup_iff).mpr (hfaithful.nodup hA)
  · exact fun i hi a ha r hr => (hmay i (Nat.lt_succ_of_le hi) a ha r hr).address

end Passed

theorem exists_passes (settings : Settings) (A : List Endpoint) (n : Nat) (t : Table)
    (hcancelled : ∀ i a, outcomes i a ≠ .error .cancelled)
    (hlog : ∀ pass ∈ log, pass.result.isOk = true) :
    ∃ result log', (passes (shiftOver settings outcomes) A n t).run log result log' ∧
      ∀ pass ∈ log', pass.result.isOk = true := by
  induction n generalizing t log with
  | zero => exact ⟨_, log, ⟨rfl, rfl⟩, hlog⟩
  | succ n ih =>
    unfold passes
    split
    · exact ⟨_, log, ⟨rfl, rfl⟩, hlog⟩
    · obtain ⟨rs, done, hpass⟩ := exists_shiftOver settings (t.missing A) log hcancelled
      have hlog₁ : ∀ pass ∈ log ++ [⟨done, .ok rs⟩], pass.result.isOk = true :=
        List.forall_mem_append.mpr ⟨hlog, List.forall_mem_singleton.mpr rfl⟩
      obtain ⟨result, log', hrest, hlog'⟩ := ih (rs.foldl Table.put t) hlog₁
      exact ⟨result, log', ⟨.ok rs, _, hpass, hrest⟩, hlog'⟩

/-- Whatever the servers do, a survey can come to its end without a pass that fails, as long as no
query is cancelled. -/
theorem exists_collect (settings : Settings) (A : List Endpoint) (n : Nat)
    (hcancelled : ∀ i a, outcomes i a ≠ .error .cancelled) :
    ∃ result log, (collect (shiftOver settings outcomes) n A).run [] result log ∧
      ∀ pass ∈ log, pass.result.isOk = true := by
  obtain ⟨result, log, hpasses, hlog⟩ :=
    exists_passes settings A (n + 1) [] hcancelled (List.forall_mem_nil _)
  cases result with
  | ok t => exact ⟨.ok t.records, log, ⟨_, log, hpasses, rfl, rfl⟩, hlog⟩
  | error f => exact ⟨.error f, log, ⟨_, log, hpasses, rfl, rfl⟩, hlog⟩

theorem collect_run (hA : A.Nodup) {n : Nat}
    (hmay : ∀ i < n + 1, ∀ a ∈ A, ∀ r, outcomes i a = .ok r →
      MayAnswer settings.serverClient patience a r)
    {result : Except Failure (List ServerRecord)}
    (h : (collect (shiftOver settings outcomes) n A).run [] result log)
    (hok : ∀ pass ∈ log, pass.result.isOk = true) :
    ∃ rs, result = .ok rs ∧ Passed A outcomes (n + 1) log rs := by
  have hnone : A.filterMap (firstAnswer outcomes 0) = [] :=
    List.filterMap_eq_nil_iff.mpr fun a _ => rfl
  obtain ⟨x, log₁, hpasses, hmap⟩ := h
  have hlog : log₁ = log := by
    cases x <;> exact hmap.2.symm
  subst hlog
  have hstart : (passes (shiftOver settings outcomes) A (n + 1) (.of [])).run [] x log₁ := hpasses
  obtain ⟨rs, rfl, hpassed⟩ :=
    passes_run hA hmay (by simp) (by simp [Fair]) (by simp [hnone]) hstart hok
  rw [List.length_nil, Nat.zero_add] at hpassed
  exact ⟨rs, hmap.1.trans (by rw [Table.records_of]), hpassed⟩

/-- Whatever the servers do in each pass, as long as no pass fails. -/
theorem collect_converges (hA : A.Nodup)
    (hmay : ∀ i ≤ settings.retryBudget, ∀ a ∈ A, ∀ r, outcomes i a = .ok r →
      MayAnswer settings.serverClient patience a r)
    {result : Except Failure (List ServerRecord)}
    (h : (collect (shiftOver settings outcomes) settings.retryBudget A).run [] result log)
    (hok : ∀ pass ∈ log, pass.result.isOk = true) :
    ∃ rs, result = .ok rs ∧ Converged outcomes settings.retryBudget A log rs := by
  have hmay' : ∀ i < settings.retryBudget + 1, ∀ a ∈ A, ∀ r, outcomes i a = .ok r →
      MayAnswer settings.serverClient patience a r :=
    fun i hi => hmay i (Nat.lt_succ_iff.mp hi)
  obtain ⟨rs, hresult, hpassed⟩ := collect_run hA hmay' h hok
  exact ⟨rs, hresult, hpassed.converged hA hmay'⟩

def drowsy : Endpoint := .ofSocket (.v4 ⟨10, 0, 0, 1⟩ 8303)

def alert : Endpoint := .ofSocket (.v4 ⟨10, 0, 0, 2⟩ 8303)

def drowsyAnswer : ServerRecord := { Query.frontier.shown with address := drowsy.toString }

def alertAnswer : ServerRecord := { Query.frontier.shown with address := alert.toString }

def drowsyOutcomes : Outcomes := fun i a =>
  if a = alert then .ok alertAnswer else if i = 0 then .error .timeout else .ok drowsyAnswer

/-- Two workers, of which the first has its answer before the second one takes anything. -/
theorem shiftOver_drowsy :
    (shiftOver {} drowsyOutcomes [drowsy, alert]).run [] (.ok [alertAnswer])
      [⟨[(drowsy, .error .timeout), (alert, .ok alertAnswer)], .ok [alertAnswer]⟩] := by
  have hstart : Shift (fun a r => r = drowsyOutcomes 0 a) [drowsy, alert] 2
      ([] ++ .hired :: [.hired]) (.start [drowsy, alert]) [] := .start
  have hasked := (hstart.turn (.opens _)).turn (.takes rfl)
  have hwaiting : Shift _ _ _ ([_] ++ .hired :: []) _ _ := hasked.turn (.reports rfl rfl)
  have hanswered := ((hwaiting.turn (.opens _)).turn (.takes rfl)).turn (.reports rfl rfl)
  have hleft : Shift _ _ _ ([] ++ .idle :: [_]) _ _ := hanswered.turn (.leaves rfl)
  exact ⟨_, _, _, hleft.turn (.leaves rfl), by simp [Hand.isGone], rfl, rfl⟩

/-- The one is asked twice, though the budget is for three passes, and the other once. -/
theorem converged_drowsy :
    Converged drowsyOutcomes 2 [drowsy, alert]
      [⟨[(drowsy, .error .timeout), (alert, .ok alertAnswer)], .ok [alertAnswer]⟩,
        ⟨[(drowsy, .ok drowsyAnswer)], .ok [drowsyAnswer]⟩]
      [alertAnswer, drowsyAnswer] := by
  let settings : Settings := {}
  let both : Pass := ⟨[(drowsy, .error .timeout), (alert, .ok alertAnswer)], .ok [alertAnswer]⟩
  let again : Pass := ⟨[(drowsy, .ok drowsyAnswer)], .ok [drowsyAnswer]⟩
  have hA : [drowsy, alert].Nodup := by decide
  have hfits : ∀ a, MayAnswer settings.serverClient 1 a
      { Query.frontier.shown with address := a.toString } :=
    MayAnswer.of_fits Query.writable_frontier (by decide +kernel) (by decide) (by decide) (by decide)
  have hmay : ∀ i ≤ settings.retryBudget, ∀ a ∈ [drowsy, alert], ∀ r, drowsyOutcomes i a = .ok r →
      MayAnswer settings.serverClient 1 a r := by
    intro i _ a ha r hr
    unfold drowsyOutcomes at hr
    split_ifs at hr with halert hfirst
    · cases hr
      exact halert ▸ hfits alert
    · cases hr
      obtain rfl : a = drowsy := by simpa [halert] using ha
      exact hfits drowsy
  have hfirst : (shiftOver settings drowsyOutcomes [drowsy, alert]).run [] (.ok [alertAnswer])
      [both] := shiftOver_drowsy
  have hsecond : (shiftOver settings drowsyOutcomes [drowsy]).run [both] (.ok [drowsyAnswer])
      [both, again] := ⟨_, _, _, .lone rfl rfl, by simp [Hand.isGone], rfl, rfl⟩
  have hone : (Table.of [alertAnswer]).missing [drowsy, alert] = [drowsy] := by decide +kernel
  have hnone : (Table.of [alertAnswer, drowsyAnswer]).missing [drowsy, alert] = [] := by
    decide +kernel
  have hput : [drowsyAnswer].foldl Table.put (.of [alertAnswer])
      = .of [alertAnswer, drowsyAnswer] := by decide +kernel
  have hthird : (passes (shiftOver settings drowsyOutcomes) [drowsy, alert] 1
      ([drowsyAnswer].foldl Table.put (.of [alertAnswer]))).run [both, again]
      (.ok (.of [alertAnswer, drowsyAnswer])) [both, again] := by
    unfold passes
    rw [hput, hnone]
    exact ⟨rfl, rfl⟩
  have hrest : (passes (shiftOver settings drowsyOutcomes) [drowsy, alert] 2
      (.of [alertAnswer])).run [both] (.ok (.of [alertAnswer, drowsyAnswer])) [both, again] := by
    unfold passes
    rw [hone]
    exact ⟨.ok [drowsyAnswer], _, hsecond, hthird⟩
  have hrun : (collect (shiftOver settings drowsyOutcomes) settings.retryBudget
      [drowsy, alert]).run [] (.ok [alertAnswer, drowsyAnswer]) [both, again] :=
    ⟨.ok (.of [alertAnswer, drowsyAnswer]), _, ⟨.ok [alertAnswer], _, hfirst, hrest⟩, rfl, rfl⟩
  obtain ⟨rs, hrs, hconverged⟩ := collect_converges hA hmay hrun
    (List.forall_mem_cons.mpr ⟨rfl, List.forall_mem_singleton.mpr rfl⟩)
  cases hrs
  exact hconverged

end Passes
end ServerDiscovery.Survey
