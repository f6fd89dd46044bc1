import ServerDiscovery.Proofs.Address.Entry
import ServerDiscovery.Proofs.Address.Endpoint
import ServerDiscovery.Proofs.Survey.Convergence
import ServerDiscovery.Proofs.Survey.Interleaving

/-! What a crew yields, whichever worker moves when. The records of servers are those that the
queries brought, each as often as it was brought; the lists of masters are joined to one set. -/

namespace ServerDiscovery.Survey

open Client

section Records

variable {settings : Settings} {targets : List Endpoint}
  {outcome : Endpoint → Except Failure ServerRecord → Prop}
  {log : List (Event Endpoint ServerRecord)} {members : List (Member Endpoint ServerRecord)}
  {c : Crew Endpoint ServerRecord}

/-- The work of a crew that shares a queue of servers is bounded and does not come to a halt before
all have gone. Then each server has been asked as often as it was listed, and the records that its
queries brought are what is given, unless a worker got no socket. -/
theorem records_of_interleaving (hends : ∀ a ∈ targets, ∃ r, outcome a r)
    (h : Interleaving outcome targets (List.replicate (settings.workers targets.length) none) log
      members c) :
    log.length ≤ 3 * targets.length + 2 * settings.workers targets.length ∧
      log.countP Event.isOpened ≤ (match settings.maxWorkers with
        | some cap => min targets.length (max cap 1)
        | none => targets.length) ∧
      ((∃ m ∈ members, m.stage ≠ .gone) → ∃ e members' c', Interleaving outcome targets
        (List.replicate (settings.workers targets.length) none) (log ++ [e]) members' c') ∧
      ((∀ m ∈ members, m.stage = .gone) →
        ((∀ f, .refused f ∉ log) → (∀ a, (a, .error .cancelled) ∉ answers log) →
          ((answers log).map Prod.fst).Perm targets ∧ (∀ q ∈ answers log, outcome q.1 q.2) ∧
            ∃ rs, c.result = .ok rs ∧ rs.Perm ((answers log).filterMap fun q => q.2.toOption)) ∧
        ((∃ f, .refused f ∈ log) → ∃ f, c.result = .error f)) := by
  have howns : ∀ n, (List.replicate n (none : Option (List Endpoint))).flatMap (·.getD []) = [] :=
    fun n => List.flatMap_eq_nil_iff.mpr fun own hown => by rw [List.eq_of_mem_replicate hown]; rfl
  have hlength := h.length_le
  have hopened := h.countP_isOpened_le
  rw [howns, List.append_nil, List.length_replicate] at hlength
  rw [List.length_replicate] at hopened
  refine ⟨hlength, hopened, ?_, fun hover => ⟨fun hrefused hcancelled => ?_, fun hrefused => ?_⟩⟩
  · rintro ⟨m, hm, hleft⟩
    refine h.goes_on ?_ hm hleft
    rwa [howns, List.append_nil]
  · have hnot : ¬ Interleaving.Hindered log := by
      rintro (⟨f, hf⟩ | ⟨a, ha⟩)
      · exact hrefused f hf
      · exact hcancelled a ha
    have hshared : targets ≠ [] → none ∈ List.replicate (settings.workers targets.length)
        (none : Option (List Endpoint)) := by
      intro hne
      have hworkers := settings.workers_pos (List.length_pos_iff.mpr hne)
      exact List.mem_replicate.mpr ⟨hworkers.ne', rfl⟩
    have hsettled := h.settled hover hnot hshared
    rw [howns, List.append_nil] at hsettled
    exact ⟨hsettled.1, h.outcome_of_mem, hsettled.2⟩
  · exact h.result_of_hindered hover (.inl hrefused)

theorem records_of_two_workers :
    let outcome : Endpoint → Except Failure ServerRecord → Prop :=
      fun a r => r = if a = drowsy then .error .timeout else .ok drowsyAnswer
    ∃ log members c, Interleaving outcome [drowsy, alert] [none, none] log members c ∧
      (∀ m ∈ members, m.stage = .gone) ∧ ((answers log).map Prod.fst).Perm [drowsy, alert] ∧
      c.result = .ok [drowsyAnswer] := by
  intro outcome
  have hdrowsy : outcome drowsy (.error .timeout) := rfl
  have halert : outcome alert (.ok drowsyAnswer) := rfl
  have hstart : Interleaving outcome [drowsy, alert] [none, none] []
      ([] ++ ⟨none, .hired⟩ :: [⟨none, .hired⟩]) (.start [drowsy, alert]) := .start
  have htaken := (hstart.step (.opens _ _)).step (.takes rfl)
  have hfirst := (htaken.step (.ends _ _ hdrowsy)).step (.reports _ _ rfl)
  have hsecond : Interleaving outcome _ _ _ ([_] ++ ⟨none, .hired⟩ :: []) _ :=
    (hfirst.step (.takes rfl)).step (.ends _ _ halert)
  have hlate : Interleaving outcome _ _ _ ([] ++ ⟨none, .told alert _⟩ :: [_]) _ :=
    (hsecond.step (.opens _ _)).step (.leaves rfl)
  have hdone := (hlate.step (.reports _ _ rfl)).step (.leaves rfl)
  have hgone : ∀ m ∈ [(⟨none, .gone⟩ : Member Endpoint ServerRecord), ⟨none, .gone⟩],
      m.stage = .gone := by simp
  have hends : ∀ a ∈ [drowsy, alert], ∃ r, outcome a r := fun a _ => ⟨_, rfl⟩
  obtain ⟨-, -, -, hover⟩ := @records_of_interleaving {} [drowsy, alert] outcome _ _ _ hends hdone
  obtain ⟨hasked, -, rs, hresult, hrs⟩ :=
    (hover hgone).1 (by simp) (by simp [answers, Event.answer?])
  refine ⟨_, _, _, hdone, hgone, hasked, ?_⟩
  obtain rfl : rs = [drowsyAnswer] := List.perm_singleton.mp hrs
  exact hresult

end Records

section Masters

variable {ι : Type} {masters : List ι} {lists : ι → Except Failure (List Endpoint)}
  {log : List (Event ι (ι × List Endpoint))} {members : List (Member ι (ι × List Endpoint))}
  {c : Crew ι (ι × List Endpoint)}

theorem mem_merge {lists : List (List Endpoint)} {e : Endpoint} :
    e ∈ merge lists ↔ ∃ l ∈ lists, e ∈ l := by
  unfold merge Endpoint.distinct
  rw [List.mem_eraseDups, List.mem_flatten]

/-- What the query of a master brings: its list under its name. -/
def listOf (lists : ι → Except Failure (List Endpoint)) (m : ι)
    (r : Except Failure (ι × List Endpoint)) : Prop :=
  r = (fun l => (m, l)) <$> lists m

theorem listOf_ok_iff {m : ι} {p : ι × List Endpoint} :
    listOf lists m (.ok p) ↔ p.1 = m ∧ lists m = .ok p.2 := by
  obtain ⟨m', l⟩ := p
  unfold listOf
  cases hm : lists m with
  | error f => exact ⟨nofun, nofun⟩
  | ok l' =>
    constructor
    · rintro ⟨⟩
      exact ⟨rfl, rfl⟩
    · rintro ⟨rfl, ⟨⟩⟩
      rfl

theorem listOf_error_iff {m : ι} {f : Failure} :
    listOf lists m (.error f) ↔ lists m = .error f := by
  unfold listOf
  cases hm : lists m with
  | ok l => exact ⟨nofun, nofun⟩
  | error f' =>
    constructor <;>
    · rintro ⟨⟩
      rfl

theorem flatMap_own (masters : List ι) :
    (masters.map fun m => some [m]).flatMap (·.getD []) = masters := by
  rw [List.flatMap_map]
  exact List.flatMap_singleton' masters

theorem answers_of_masters
    (h : Interleaving (listOf lists) [] (masters.map fun m => some [m]) log members c)
    (hover : ∀ m ∈ members, m.stage = .gone) (hnot : ¬ Interleaving.Hindered log) :
    ((answers log).map Prod.fst).Perm masters ∧ ∃ rs, c.result = .ok rs ∧
      rs.Perm ((answers log).filterMap fun q => q.2.toOption) := by
  have hsettled := h.settled hover hnot fun hne => absurd rfl hne
  rwa [flatMap_own, List.nil_append] at hsettled

theorem hindered_iff
    (h : Interleaving (listOf lists) [] (masters.map fun m => some [m]) log members c)
    (hover : ∀ m ∈ members, m.stage = .gone) :
    Interleaving.Hindered log ↔
      (∃ f, .refused f ∈ log) ∨ ∃ m ∈ masters, lists m = .error .cancelled := by
  have hjobs := h.perm_jobs
  rw [flatMap_own, List.nil_append] at hjobs
  constructor
  · refine Or.imp_right ?_
    rintro ⟨m, hm⟩
    have hasked : m ∈ (answers log).map Prod.fst := List.mem_map_of_mem hm
    exact ⟨m, hjobs.subset (List.mem_append_right _ hasked),
      listOf_error_iff.mp (h.outcome_of_mem _ hm)⟩
  · rintro (hrefused | ⟨m, hm, hcancelled⟩)
    · exact .inl hrefused
    · -- Either somebody else was hindered, or this master has been asked.
      by_contra hnot
      obtain ⟨hall, -⟩ := answers_of_masters h hover hnot
      obtain ⟨⟨m', r⟩, hq, rfl⟩ := List.mem_map.mp (hall.symm.subset hm)
      have hlist : r = (fun l => (m', l)) <$> lists m' := h.outcome_of_mem _ hq
      rw [hcancelled] at hlist
      obtain rfl : r = .error .cancelled := hlist
      exact hnot (.inr ⟨m', hq⟩)

theorem mem_merge_found {done : List (ι × Except Failure (ι × List Endpoint))}
    {rs : List (ι × List Endpoint)} (hrs : rs.Perm (done.filterMap fun q => q.2.toOption))
    (e : Endpoint) :
    e ∈ merge (rs.map Prod.snd) ↔ ∃ q ∈ done, ∃ p, q.2 = .ok p ∧ e ∈ p.2 := by
  rw [mem_merge]
  constructor
  · rintro ⟨l, hl, he⟩
    obtain ⟨p, hp, rfl⟩ := List.mem_map.mp hl
    obtain ⟨q, hq, hr⟩ := List.mem_filterMap.mp (hrs.subset hp)
    exact ⟨q, hq, p, Wire.eq_ok_of_toOption hr, he⟩
  · rintro ⟨q, hq, p, hr, he⟩
    have hfound : p ∈ rs := hrs.symm.subset (List.mem_filterMap.mpr ⟨q, hq, by rw [hr]; rfl⟩)
    exact ⟨p.2, List.mem_map_of_mem hfound, he⟩

theorem mem_merge_answers {done : List (ι × Except Failure (ι × List Endpoint))}
    {rs : List (ι × List Endpoint)} (hjobs : (done.map Prod.fst).Perm masters)
    (hlists : ∀ q ∈ done, listOf lists q.1 q.2)
    (hrs : rs.Perm (done.filterMap fun q => q.2.toOption)) (e : Endpoint) :
    e ∈ merge (rs.map Prod.snd) ↔ ∃ m ∈ masters, ∃ l, lists m = .ok l ∧ e ∈ l := by
  rw [mem_merge_found hrs]
  constructor
  · rintro ⟨q, hq, p, hr, he⟩
    have hlist := hlists q hq
    rw [hr, listOf_ok_iff] at hlist
    exact ⟨q.1, hjobs.subset (List.mem_map_of_mem hq), p.2, hlist.2, he⟩
  · rintro ⟨m, hm, l, hok, he⟩
    obtain ⟨q, hq, rfl⟩ := List.mem_map.mp (hjobs.symm.subset hm)
    have hr : q.2 = (fun l => (q.1, l)) <$> lists q.1 := hlists q hq
    rw [hok] at hr
    exact ⟨q, hq, (q.1, l), hr, he⟩

theorem countP_formsOfV4 {es : List Endpoint} (hnodup : es.Nodup) {ip : Ip4} {port : UInt16}
    {flow scope : UInt32} {e : Endpoint} (he : e ∈ es)
    (hform : e ∈ Endpoint.formsOfV4 ip port flow scope) :
    es.countP (· ∈ Endpoint.formsOfV4 ip port flow scope) = 1 := by
  obtain rfl := Endpoint.mem_formsOfV4.mp hform
  simp only [Endpoint.mem_formsOfV4]
  exact List.count_eq_one_of_mem hnodup he

/-- Each master has a worker of its own. When all have gone the lists of those that answered have
become one set, the same in any order, unless a worker got no socket or a query was cancelled. -/
theorem union_of_interleaving
    (h : Interleaving (listOf lists) [] (masters.map fun m => some [m]) log members c) :
    log.length ≤ 5 * masters.length ∧
      ((∃ m ∈ members, m.stage ≠ .gone) → ∃ e members' c', Interleaving (listOf lists) []
        (masters.map fun m => some [m]) (log ++ [e]) members' c') ∧
      ((∀ m ∈ members, m.stage = .gone) →
        ((∀ f, .refused f ∉ log) → (∀ m ∈ masters, lists m ≠ .error .cancelled) →
          ∃ es, (fun found => merge (found.map Prod.snd)) <$> c.result = .ok es ∧ es.Nodup ∧
            (∀ e, e ∈ es ↔ ∃ m ∈ masters, ∃ l, lists m = .ok l ∧ e ∈ l) ∧
            ∀ ip port flow scope, (∃ m ∈ masters, ∃ l, lists m = .ok l ∧
                ∃ e ∈ l, e ∈ Endpoint.formsOfV4 ip port flow scope) →
              es.countP (· ∈ Endpoint.formsOfV4 ip port flow scope) = 1) ∧
        ((∃ f, .refused f ∈ log) ∨ (∃ m ∈ masters, lists m = .error .cancelled) →
          ∃ f, (fun found => merge (found.map Prod.snd)) <$> c.result = .error f)) := by
  have hlength := h.length_le
  have hhindered := hindered_iff h
  rw [flatMap_own, List.nil_append, List.length_map] at hlength
  refine ⟨by omega, ?_, fun hover => ⟨fun hrefused hcancelled => ?_, fun hfailing => ?_⟩⟩
  · rintro ⟨m, hm, hleft⟩
    exact h.goes_on (fun m _ => ⟨_, rfl⟩) hm hleft
  · have hnot : ¬ Interleaving.Hindered log := by
      rw [hhindered hover]
      rintro (⟨f, hf⟩ | ⟨m, hm, hm'⟩)
      · exact hrefused f hf
      · exact hcancelled m hm hm'
    obtain ⟨hjobs, rs, hresult, hrs⟩ := answers_of_masters h hover hnot
    have hmem := mem_merge_answers hjobs h.outcome_of_mem hrs
    have hnodup : (merge (rs.map Prod.snd)).Nodup := Endpoint.nodup_distinct _
    refine ⟨merge (rs.map Prod.snd), by rw [hresult]; rfl, hnodup, hmem, ?_⟩
    rintro ip port flow scope ⟨m, hm, l, hok, e, he, hform⟩
    exact countP_formsOfV4 hnodup ((hmem e).mpr ⟨m, hm, l, hok, he⟩) hform
  · obtain ⟨f, hf⟩ := h.result_of_hindered hover ((hhindered hover).mpr hfailing)
    rw [hf]
    exact ⟨f, rfl⟩

def twoLists : Nat → Except Failure (List Endpoint)
  | 0 => .ok [alert]
  | 1 => .ok [.ofSocket (.v6 (Ip4.mapped ⟨10, 0, 0, 2⟩) 8303 0 0), drowsy]
  | _ => .error .timeout

theorem union_of_two_lists :
    ∃ log members c es, Interleaving (listOf twoLists) [] [some [0], some [1]] log members c ∧
      (∀ m ∈ members, m.stage = .gone) ∧
      (fun found => merge (found.map Prod.snd)) <$> c.result = .ok es ∧ es.Nodup ∧
      (∀ e, e ∈ es ↔ e = alert ∨ e = drowsy) ∧
      es.countP (· ∈ Endpoint.formsOfV4 ⟨10, 0, 0, 2⟩ 8303 0 0) = 1 := by
  have hfirst : listOf twoLists 0 (.ok (0, [alert])) := rfl
  have hsecond : listOf twoLists 1 (.ok (1, _)) := rfl
  have hstart : Interleaving (listOf twoLists) [] [some [0], some [1]] []
      ([] ++ ⟨some [0], .hired⟩ :: [⟨some [1], .hired⟩]) (.start []) := .start
  -- The second list is asked for and put in while the first one is on its way.
  have hasking : Interleaving (listOf twoLists) _ _ _ ([_] ++ ⟨some [1], .hired⟩ :: []) _ :=
    (hstart.step (.opens _ _)).step (.takes rfl)
  have hother := (hasking.step (.opens _ _)).step (.takes rfl)
  have hput : Interleaving (listOf twoLists) _ _ _ ([] ++ ⟨some [], .asking 0⟩ :: [_]) _ :=
    ((hother.step (.ends _ _ hsecond)).step (.reports _ _ rfl)).step (.leaves rfl)
  have hback := (hput.step (.ends _ _ hfirst)).step (.reports _ _ rfl)
  have hdone := hback.step (.leaves rfl)
  have hgone : ∀ m ∈ [(⟨some [], .gone⟩ : Member Nat (Nat × List Endpoint)), ⟨some [], .gone⟩],
      m.stage = .gone := by simp
  obtain ⟨-, -, hover⟩ := @union_of_interleaving Nat [0, 1] twoLists _ _ _ hdone
  obtain ⟨es, hes, hnodup, hmem, hforms⟩ := (hover hgone).1 (by simp) (by simp [twoLists])
  refine ⟨_, _, _, es, hdone, hgone, hes, hnodup, ?_, ?_⟩
  · intro e
    rw [hmem]
    simp [twoLists, Endpoint.ofSocket_mapped, alert]
  · exact hforms _ _ _ _ ⟨0, by simp, [alert], rfl, alert, by simp, Endpoint.mem_formsOfV4.mpr rfl⟩

end Masters
end ServerDiscovery.Survey
