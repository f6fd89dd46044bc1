import Mathlib.Data.List.Nodup
import ServerDiscovery.Proofs.Simulation.Floor
import ServerDiscovery.Proofs.Survey.Yield
import ServerDiscovery.Simulation.Expedition

/-! A survey of a simulated network is a survey whose passes are shifts, so that what holds of every
survey of that kind holds of this one. -/

namespace ServerDiscovery.Simulation

open Client Survey

namespace Expedition

variable {α β ι ρ : Type} {base base' : Base}

theorem run_bind (x : Expedition α) (f : α → Expedition β) (base : Base) :
    (x >>= f).run.run base = (x.run.run base).bind fun p =>
      match p.1 with
      | .ok a => (f a).run.run p.2
      | .error e => some (.error e, p.2) := by
  refine congrArg (Option.bind _) (funext fun p => ?_)
  obtain ⟨r, base'⟩ := p
  cases r <;> rfl

def openFloor (base : Base) (queue : List ι) : Floor ι ρ :=
  ⟨base.world, base.opened, base.sockets, base.supplies, .start queue, []⟩

theorem of_employ {settings : Client.Settings} {query : ι → Query ρ} {queue : List ι}
    {workers : List (Option (List ι))} {eager : Bool} {result : Except Failure (List ρ)}
    (h : (employ settings query queue workers eager).run.run base = some (result, base')) :
    base'.settings = base.settings ∧ ∃ f f' : Floor ι ρ,
      workers.foldlM (fun (f : Floor ι ρ) own =>
        f.hire (fun job s => (query job).dialogue s) settings own) (openFloor base queue) = some f ∧
      f.settle (fun job s => (query job).dialogue s) eager patience = some f' ∧
      result = f'.crew.result := by
  unfold employ at h
  rw [run_bind] at h
  dsimp only at h
  have hget : (get : Expedition Base).run.run base = some (.ok base, base) := rfl
  rw [hget, Option.bind_some] at h
  dsimp only at h
  split at h
  · cases h
  · rename_i f' hf'
    obtain ⟨f, hf, hsettle⟩ := Option.bind_eq_some_iff.mp hf'
    cases hresult : f'.crew.result <;> rw [hresult] at h <;> cases h <;>
      exact ⟨rfl, f, f', hf, hsettle, hresult.symm⟩

theorem interleaving_of_employ {query : ι → Query ρ} {settings : Client.Settings}
    {Fit : Session → Moment → Prop} {queue : List ι} {workers : List (Option (List ι))}
    {result : Except Failure (List ρ)} (hlasting : Lasting query settings Fit)
    (h : (employ settings query queue workers false).run.run base = some (result, base')) :
    ∃ log members crew, Interleaving (MayEnd query Fit) queue workers log members crew ∧
      (∀ m ∈ members, m.stage = .gone) ∧ result = crew.result := by
  obtain ⟨-, f, f', hhire, hsettle, rfl⟩ := of_employ h
  have hstart : Staffed query Fit queue workers (workers.map (fun own => ⟨own, .hired⟩) ++ [])
      (openFloor base queue : Floor ι ρ) := by
    refine ⟨[], [], _, [], rfl, List.forall_mem_nil _, List.forall_mem_nil _, ?_, .start⟩
    rw [List.map_nil, List.append_nil, List.append_nil, List.append_nil]
  obtain ⟨⟨waiting, gone, members, log, hwaiting, -, hgone, hperm, hinterleaving⟩, hasleep⟩ :=
    (hstart.hire_all hlasting hhire).settle hlasting hsettle
  obtain rfl : waiting = [] := List.map_eq_nil_iff.mp (hwaiting.trans hasleep)
  exact ⟨log, members, f'.crew, hinterleaving, fun m hm => hgone m (hperm.subset hm), rfl⟩

theorem shift_of_employ {query : ι → Query ρ} {settings : Client.Settings}
    {Fit : Session → Moment → Prop} {queue : List ι} {n : Nat} {result : Except Failure (List ρ)}
    (hlasting : Lasting query settings Fit)
    (h : (employ settings query queue (List.replicate n none) false).run.run base
      = some (result, base')) :
    ∃ hands crew done, Shift (MayEnd query Fit) queue n hands crew done ∧
      (∀ h ∈ hands, h.isGone = true) ∧ result = crew.result := by
  obtain ⟨log, members, crew, hinterleaving, hgone, hresult⟩ := interleaving_of_employ hlasting h
  obtain ⟨done, hshift⟩ := hinterleaving.shift
  refine ⟨_, crew, done, hshift, ?_, hresult⟩
  intro h hmem
  obtain ⟨m, hm, rfl⟩ := List.mem_map.mp hmem
  rw [hgone m hm]
  rfl

theorem lasting_history (settings : Client.Settings) (patience : Nat) :
    Lasting (Query.recordOf patience) settings fun s m => ∃ es, History settings es s m where
  new supply m := ⟨[], .opened supply m⟩
  query := by
    rintro a s s' m m' os r ⟨es, hhistory⟩ hcourse
    exact ⟨_, (hhistory.aim a.toSocket).call .record patience
      (Query.course_map Answer.record hcourse)⟩

section Records

variable {targets A : List Endpoint} {rs : List ServerRecord} {log : List Pass}

structure Sound (settings : Survey.Settings) (pass : Pass) : Prop where
  isOk : pass.result.isOk = true
  nodup : (pass.queries.map Prod.fst).Nodup
  ends : ∀ q ∈ pass.queries, MayEnd (Query.recordOf patience)
    (fun s m => ∃ es, History settings.serverClient es s m) q.1 q.2

def Agrees (outcomes : Outcomes) (log : List Pass) : Prop :=
  ∀ i pass, log[i]? = some pass → ∀ q ∈ pass.queries, q.2 = outcomes i q.1

theorem Agrees.left {outcomes : Outcomes} {log' : List Pass} (h : Agrees outcomes (log ++ log')) :
    Agrees outcomes log := by
  intro i pass hi
  obtain ⟨hlt, -⟩ := List.getElem?_eq_some_iff.mp hi
  exact h i pass ((List.getElem?_append_left hlt).trans hi)

def outcomesOf (log : List Pass) : Outcomes := fun i a =>
  ((log[i]?.bind fun pass => pass.queries.lookup a)).getD (.error .timeout)

theorem agrees_outcomesOf (h : ∀ pass ∈ log, (pass.queries.map Prod.fst).Nodup) :
    Agrees (outcomesOf log) log := by
  intro i pass hi q hq
  have hlookup := Keyed.lookup_of_mem (h pass (List.mem_of_getElem? hi)) hq
  unfold outcomesOf
  rw [hi, Option.bind_some, hlookup]
  rfl

theorem mayAnswer_of_outcomesOf {settings : Survey.Settings} {i : Nat} {a : Endpoint}
    {r : ServerRecord} (h : ∀ pass ∈ log, Sound settings pass) (hr : outcomesOf log i a = .ok r) :
    MayAnswer settings.serverClient patience a r := by
  unfold outcomesOf at hr
  cases hlookup : log[i]?.bind fun pass => pass.queries.lookup a with
  | none =>
    rw [hlookup] at hr
    cases hr
  | some x =>
    rw [hlookup] at hr
    obtain rfl : x = .ok r := hr
    obtain ⟨pass, hpass, hx⟩ := Option.bind_eq_some_iff.mp hlookup
    obtain ⟨before, after, hqueries, -⟩ := List.lookup_eq_some_iff.mp hx
    have hmem : (a, Except.ok r) ∈ pass.queries := by simp [hqueries]
    obtain ⟨s, m, os, s', m', ⟨es, hhistory⟩, hcourse⟩ :=
      (h pass (List.mem_of_getElem? hpass)).ends _ hmem
    exact ⟨es, s, m, os, s', m', hhistory, hcourse⟩

theorem shift_of_records (htargets : targets.Nodup) (hne : targets ≠ [])
    (h : (records targets).run.run base = some (.ok rs, base')) (log : List Pass) :
    base'.settings = base.settings ∧ ∃ pass, Sound base.settings pass ∧
      ∀ outcomes, Agrees outcomes (log ++ [pass]) →
        (shiftOver base.settings outcomes targets).run log (.ok rs) (log ++ [pass]) := by
  have hemploy : (employ base.settings.serverClient (Query.recordOf patience) targets
      (List.replicate (base.settings.workers targets.length) none) false).run.run base
        = some (.ok rs, base') := h
  obtain ⟨hsettings, -⟩ := of_employ hemploy
  obtain ⟨hands, crew, done, hshift, hgone, hresult⟩ :=
    shift_of_employ (lasting_history base.settings.serverClient patience) hemploy
  have hworkers := base.settings.workers_pos (List.length_pos_iff.mpr hne)
  obtain ⟨hjobs, hends, -⟩ := hshift.settled hworkers hgone hresult.symm
  refine ⟨hsettings, ⟨done, .ok rs⟩, ⟨rfl, hjobs.nodup_iff.mpr htargets, hends⟩, ?_⟩
  intro outcomes hagrees
  exact ⟨hands, crew, done, hshift.mono (hagrees _ _ List.getElem?_concat_length), hgone, hresult,
    rfl⟩

theorem passes_of_run (hA : A.Nodup) {n : Nat} {t t' : Table}
    (h : (passes records A n t).run.run base = some (.ok t', base')) (log : List Pass) :
    ∃ new, (∀ pass ∈ new, Sound base.settings pass) ∧ ∀ outcomes, Agrees outcomes (log ++ new) →
      (passes (shiftOver base.settings outcomes) A n t).run log (.ok t') (log ++ new) := by
  -- The log is that of the passes before; later passes know nothing of them but their number.
  induction n generalizing log t base with
  | zero =>
    cases h
    refine ⟨[], List.forall_mem_nil _, fun _ _ => ?_⟩
    rw [List.append_nil]
    exact ⟨rfl, rfl⟩
  | succ n ih =>
    unfold passes at h ⊢
    split at h
    · cases h
      refine ⟨[], List.forall_mem_nil _, fun _ _ => ?_⟩
      rw [List.append_nil]
      exact ⟨rfl, rfl⟩
    · rename_i hne
      rw [run_bind] at h
      obtain ⟨⟨r, base₁⟩, hrecords, hrest⟩ := Option.bind_eq_some_iff.mp h
      cases r with
      | error f => cases hrest
      | ok rs =>
        obtain ⟨hsettings, pass, hsound, hshift⟩ :=
          shift_of_records (hA.filter _) hne hrecords log
        obtain ⟨new, hnew, hpasses⟩ := ih hrest (log ++ [pass])
        rw [hsettings] at hnew hpasses
        refine ⟨pass :: new, List.forall_mem_cons.mpr ⟨hsound, hnew⟩, fun outcomes hagrees => ?_⟩
        rw [List.append_cons] at hagrees ⊢
        exact ⟨.ok rs, log ++ [pass], hshift outcomes hagrees.left, hpasses outcomes hagrees⟩

theorem collect_of_run (hA : A.Nodup) {n : Nat}
    (h : (collect records n A).run.run base = some (.ok rs, base')) :
    ∃ outcomes log, (collect (shiftOver base.settings outcomes) n A).run [] (.ok rs) log ∧
      (∀ pass ∈ log, pass.result.isOk = true) ∧
      ∀ i a r, outcomes i a = .ok r → MayAnswer base.settings.serverClient patience a r := by
  obtain ⟨⟨x, base₁⟩, hpasses, hmap⟩ := Option.bind_eq_some_iff.mp h
  cases x with
  | error f => cases hmap
  | ok t =>
    cases hmap
    have hrun : (passes records A (n + 1) []).run.run base = some (.ok t, base') := hpasses
    obtain ⟨log, hsound, hshifts⟩ := passes_of_run hA hrun []
    have hagrees := agrees_outcomesOf fun pass hpass => (hsound pass hpass).nodup
    exact ⟨outcomesOf log, log, ⟨.ok t, log, hshifts _ hagrees, rfl, rfl⟩,
      fun pass hpass => (hsound pass hpass).isOk, fun i a r => mayAnswer_of_outcomesOf hsound⟩

theorem of_addresses (h : addresses.run.run base = some (.ok A, base')) :
    A.Nodup ∧ base'.settings = base.settings := by
  obtain ⟨⟨x, base₁⟩, hask, hmap⟩ := Option.bind_eq_some_iff.mp h
  cases x with
  | error f => cases hmap
  | ok lists =>
    cases hmap
    have hemploy : (employ base.settings.masterClient _ [] _ false).run.run base
      = some (.ok lists, base') := hask
    exact ⟨Endpoint.nodup_distinct _, (of_employ hemploy).1⟩

/-- Each server that the masters list is asked until it answers, and its first answer is given. -/
theorem survey_converges (h : survey.run.run base = some (.ok rs, base')) :
    ∃ A base₁ outcomes log, addresses.run.run base = some (.ok A, base₁) ∧
      (∀ i a r, outcomes i a = .ok r → MayAnswer base.settings.serverClient patience a r) ∧
      Converged outcomes base.settings.retryBudget A log rs := by
  unfold survey at h
  rw [run_bind] at h
  obtain ⟨⟨x, base₁⟩, haddresses, hcollect⟩ := Option.bind_eq_some_iff.mp h
  cases x with
  | error f => cases hcollect
  | ok A =>
    obtain ⟨hA, hsettings⟩ := of_addresses haddresses
    have hrun : (collect records base₁.settings.retryBudget A).run.run base₁
        = some (.ok rs, base') := hcollect
    obtain ⟨outcomes, log, hshifts, hok, hmay⟩ := collect_of_run hA hrun
    rw [hsettings] at hshifts hmay
    have hmay' : ∀ i < base.settings.retryBudget + 1, ∀ a ∈ A, ∀ r, outcomes i a = .ok r →
        MayAnswer base.settings.serverClient patience a r := fun i _ a _ r hr => hmay i a r hr
    obtain ⟨rs', hrs, hpassed⟩ := collect_run hA hmay' hshifts hok
    cases hrs
    exact ⟨A, base₁, outcomes, log, haddresses, hmay, hpassed.converged hA hmay'⟩

end Records

end Expedition
end ServerDiscovery.Simulation
