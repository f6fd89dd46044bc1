import Mathlib.Data.List.Perm.Basic
import ServerDiscovery.Proofs.Token.Ledger

/-! Runs of a ledger. Its capacity holds whatever is asked of it and whatever numbers are drawn, and
when the dead entries are purged shows in no answer. -/

namespace ServerDiscovery.Token.Ledger

variable {l l' l'' : Ledger} {b : SocketAddress} {e : Entry} {now t : Time}

/-! ### Ledgers that differ in dead entries only -/

/-- From now on nobody can tell the ledgers apart. -/
structure Alike (now : Time) (l l' : Ledger) : Prop where
  lifetime : l.lifetime = l'.lifetime
  capacity : l.capacity = l'.capacity
  supply : l.supply = l'.supply
  drawn : l.drawn = l'.drawn
  live : ∀ a t, now ≤ t → l.live? a t = l'.live? a t

namespace Alike

theorem refl (now : Time) (l : Ledger) : Alike now l l :=
  ⟨rfl, rfl, rfl, rfl, fun _ _ _ => rfl⟩

theorem symm (h : Alike now l l') : Alike now l' l :=
  ⟨h.lifetime.symm, h.capacity.symm, h.supply.symm, h.drawn.symm,
    fun a t hle => (h.live a t hle).symm⟩

theorem trans (h : Alike now l l') (h' : Alike now l' l'') : Alike now l l'' :=
  ⟨h.lifetime.trans h'.lifetime, h.capacity.trans h'.capacity, h.supply.trans h'.supply,
    h.drawn.trans h'.drawn, fun a t hle => (h.live a t hle).trans (h'.live a t hle)⟩

theorem later (h : Alike now l l') (hle : now ≤ t) : Alike t l l' :=
  ⟨h.lifetime, h.capacity, h.supply, h.drawn, fun a u hu => h.live a u (Nat.le_trans hle hu)⟩

theorem purge (hl : Sound l) (now : Time) : Alike now (l.purge now).2 l :=
  ⟨rfl, rfl, rfl, rfl, fun a _ hle => hl.live?_purge a hle⟩

theorem put (h : Alike now l l') (a : SocketAddress) (e : Entry) :
    Alike now (l.put a e) (l'.put a e) where
  lifetime := h.lifetime
  capacity := h.capacity
  supply := h.supply
  drawn := h.drawn
  live b t hle := by
    by_cases hb : b = a
    · subst hb
      rw [live?_put_self, live?_put_self, h.lifetime]
    · rw [live?_put_of_ne hb, live?_put_of_ne hb, h.live b t hle]

theorem grant (h : Alike now l l') (a : SocketAddress) (client : Int32) :
    Alike now (l.grant a client now).2 (l'.grant a client now).2 := by
  have hnext : Alike now { l with drawn := l.drawn + 1 } { l' with drawn := l'.drawn + 1 } :=
    ⟨h.lifetime, h.capacity, h.supply, congrArg (· + 1) h.drawn, h.live⟩
  have hserver : l.supply l.drawn = l'.supply l'.drawn := by rw [h.supply, h.drawn]
  have hput := hnext.put a ⟨l.supply l.drawn, client, now⟩
  unfold Ledger.grant
  rw [← hserver]
  exact hput

theorem liveCount (h : Alike now l l') (hl : Sound l) (hl' : Sound l') :
    l.liveCount now = l'.liveCount now := by
  have hkeys := (hl.purge now).keys
  have hkeys' := (hl'.purge now).keys
  have hmem : ∀ a, a ∈ (l.purge now).2.entries.map Prod.fst
      ↔ a ∈ (l'.purge now).2.entries.map Prod.fst := by
    intro a
    have hlookup : (l.purge now).2.entries.lookup a = (l'.purge now).2.entries.lookup a :=
      (hl.entry?_purge a now).trans
        ((h.live a now (Nat.le_refl now)).trans (hl'.entry?_purge a now).symm)
    rw [Keyed.mem_keys_iff, Keyed.mem_keys_iff, hlookup]
  have hlength := ((List.perm_ext_iff_of_nodup hkeys hkeys').mpr hmem).length_eq
  rw [List.length_map, List.length_map] at hlength
  rw [← size_purge, ← size_purge]
  exact hlength

theorem issue (h : Alike now l l') (hl : Sound l) (hl' : Sound l') (a : SocketAddress)
    (client : Int32) : (l.issue a client now).1 = (l'.issue a client now).1 ∧
      Alike now (l.issue a client now).2 (l'.issue a client now).2 := by
  have hlive := h.live a now (Nat.le_refl now)
  have hcount := h.liveCount hl hl'
  cases hentry : l.live? a now with
  | some e =>
    rw [issue_eq_of_live hentry, issue_eq_of_live (hlive.symm.trans hentry)]
    exact ⟨rfl, h.put a _⟩
  | none =>
    have hentry' : l'.live? a now = none := hlive.symm.trans hentry
    rcases Nat.lt_or_ge (l.liveCount now) l.capacity with hroom | hfull
    · have hroom' : l'.liveCount now < l'.capacity := by rwa [← hcount, ← h.capacity]
      obtain ⟨l₀, hl₀, -, heq⟩ := issue_eq_of_room hentry hroom client
      obtain ⟨l₀', hl₀', -, heq'⟩ := issue_eq_of_room hentry' hroom' client
      have hpurged : Alike now l₀ l := by
        rcases hl₀ with rfl | rfl
        · exact .refl now _
        · exact .purge hl now
      have hpurged' : Alike now l₀' l' := by
        rcases hl₀' with rfl | rfl
        · exact .refl now _
        · exact .purge hl' now
      rw [heq, heq', h.supply, h.drawn]
      exact ⟨rfl, (hpurged.trans (h.trans hpurged'.symm)).grant a client⟩
    · have hfull' : l'.capacity ≤ l'.liveCount now := by rwa [← hcount, ← h.capacity]
      rw [hl.issue_eq_of_full hentry hfull, hl'.issue_eq_of_full hentry' hfull']
      exact ⟨rfl, h⟩

theorem validate (h : Alike now l l') (a : SocketAddress) (server : Int32) :
    (l.validate a server now).1 = (l'.validate a server now).1 ∧
      Alike now (l.validate a server now).2 (l'.validate a server now).2 := by
  have hlive := h.live a now (Nat.le_refl now)
  rcases validate_cases l a server now with ⟨e, he, hserver, heq⟩ | ⟨hnot, heq⟩
  · rcases validate_cases l' a server now with ⟨e', he', -, heq'⟩ | ⟨hnot', -⟩
    · obtain rfl : e = e' := Option.some.inj (he.symm.trans (hlive.trans he'))
      rw [heq, heq']
      exact ⟨rfl, h.put a _⟩
    · exact absurd hserver (hnot' e (hlive.symm.trans he))
  · rcases validate_cases l' a server now with ⟨e', he', hserver', -⟩ | ⟨-, heq'⟩
    · exact absurd hserver' (hnot e' (hlive.trans he'))
    · rw [heq, heq']
      exact ⟨rfl, h⟩

end Alike

/-! ### Runs -/

inductive Op where
  | issue (a : SocketAddress) (client : Int32)
  | validate (a : SocketAddress) (server : Int32)
  | purge
  deriving DecidableEq

inductive Answer where
  | token (granted : Option Int32)
  | verdict (good : Bool)
  | dropped (count : Nat)
  deriving DecidableEq

def Op.address? : Op → Option SocketAddress
  | .issue a _ => some a
  | .validate a _ => some a
  | .purge => none

def Op.isRequest (op : Op) : Bool := op.address?.isSome

def act (l : Ledger) (now : Time) : Op → Answer × Ledger
  | .issue a client => (.token (l.issue a client now).1, (l.issue a client now).2)
  | .validate a server => (.verdict (l.validate a server now).1, (l.validate a server now).2)
  | .purge => (.dropped (l.purge now).1, (l.purge now).2)

def after (l : Ledger) (ops : List (Time × Op)) : Ledger :=
  ops.foldl (fun l op => (l.act op.1 op.2).2) l

def answers : Ledger → List (Time × Op) → List Answer
  | _, [] => []
  | l, (now, op) :: ops =>
    if op.isRequest then (l.act now op).1 :: answers (l.act now op).2 ops
    else answers (l.act now op).2 ops

def requests (ops : List (Time × Op)) : List (Time × Op) := ops.filter fun op => op.2.isRequest

theorem Sound.act (h : Sound l) (now : Time) (op : Op) : Sound (l.act now op).2 := by
  cases op with
  | issue a client => exact h.issue a client now
  | validate a server => exact h.validate a server now
  | purge => exact h.purge now

theorem Sound.after (h : Sound l) (ops : List (Time × Op)) : Sound (l.after ops) := by
  induction ops generalizing l with
  | nil => exact h
  | cons op ops ih => exact ih (h.act op.1 op.2)

theorem settings_act (hl : Sound l) (now : Time) (op : Op) :
    (l.act now op).2.lifetime = l.lifetime ∧ (l.act now op).2.capacity = l.capacity := by
  cases op with
  | issue a client => exact hl.settings_issue a client now
  | validate a server => exact settings_validate l a server now
  | purge => exact ⟨rfl, rfl⟩

theorem settings_after (hl : Sound l) (ops : List (Time × Op)) :
    (l.after ops).lifetime = l.lifetime ∧ (l.after ops).capacity = l.capacity := by
  induction ops generalizing l with
  | nil => exact ⟨rfl, rfl⟩
  | cons op ops ih =>
    obtain ⟨hlifetime, hcapacity⟩ := settings_act hl op.1 op.2
    obtain ⟨ihlifetime, ihcapacity⟩ := ih (hl.act op.1 op.2)
    exact ⟨ihlifetime.trans hlifetime, ihcapacity.trans hcapacity⟩

theorem Sound.entry?_act (h : Sound l) {op : Op} (hb : op.address? ≠ some b)
    (hlive : l.live? b now = some e) : entry? (l.act now op).2 b = some e := by
  cases op with
  | issue a client => exact h.entry?_issue_of_ne (fun hba => hb (congrArg some hba.symm)) hlive
  | validate a server => exact entry?_validate_of_ne (fun hba => hb (congrArg some hba.symm)) hlive
  | purge => exact entry?_purge_of_live hlive

theorem Sound.issue_eq_none_iff (h : Sound l) (a : SocketAddress) (client : Int32) (now : Time) :
    (l.issue a client now).1 = none ↔ l.live? a now = none ∧ l.capacity ≤ l.liveCount now := by
  rcases h.issue_cases a client now with
    ⟨e, he, heq⟩ | ⟨hnone, hfull, heq⟩ | ⟨hnone, hroom, l₀, -, -, heq⟩
  · simp [heq, he]
  · simp [heq, hnone, hfull]
  · simp [heq, Nat.not_le.mpr hroom]

theorem Alike.act (h : Alike now l l') (hl : Sound l) (hl' : Sound l') {op : Op}
    (hop : op.isRequest = true) : (l.act now op).1 = (l'.act now op).1 ∧
      Alike now (l.act now op).2 (l'.act now op).2 := by
  cases op with
  | issue a client =>
    obtain ⟨hanswer, hnext⟩ := h.issue hl hl' a client
    exact ⟨congrArg Answer.token hanswer, hnext⟩
  | validate a server =>
    obtain ⟨hanswer, hnext⟩ := h.validate a server
    exact ⟨congrArg Answer.verdict hanswer, hnext⟩
  | purge => cases hop

theorem answers_requests {ops : List (Time × Op)} (h : Alike now l l') (hl : Sound l)
    (hl' : Sound l') (hops : (now :: ops.map Prod.fst).Pairwise (· ≤ ·)) :
    l.answers ops = l'.answers (requests ops) := by
  induction ops generalizing now l l' with
  | nil => rfl
  | cons op ops ih =>
    obtain ⟨t, op⟩ := op
    obtain ⟨hle, hrest⟩ := List.pairwise_cons.mp hops
    have ht := h.later (hle t (List.mem_cons_self ..))
    cases hop : op.isRequest with
    | true =>
      obtain ⟨hanswer, hnext⟩ := ht.act hl hl' hop
      have hrequests : requests ((t, op) :: ops) = (t, op) :: requests ops :=
        List.filter_cons_of_pos hop
      rw [hrequests, answers, answers, if_pos hop, if_pos hop, hanswer,
        ih hnext (hl.act t op) (hl'.act t op) hrest]
    | false =>
      have hpurge : op = .purge := by
        cases op with
        | purge => rfl
        | issue | validate => cases hop
      subst hpurge
      have hrequests : requests ((t, Op.purge) :: ops) = requests ops :=
        List.filter_cons_of_neg Bool.false_ne_true
      rw [hrequests, answers, if_neg (Bool.eq_false_iff.mp hop)]
      exact ih ((Alike.purge hl t).trans ht) (hl.purge t) hl' hrest

/-- After any run the ledger keeps to its capacity with one entry an address, refuses a token exactly
when live entries of others fill it, gives a live token out again, is left as it was by a token that
is not good, and touches no live entry but the one of the address that it is asked about. Purges
added to a run or left out of it change none of its answers. -/
theorem lawful_after (lifetime capacity : Nat) (supply : Supply) (ops : List (Time × Op)) :
    (let l := (empty lifetime capacity supply).after ops
     l.lifetime = lifetime ∧ l.size ≤ capacity ∧ (l.entries.map Prod.fst).Nodup ∧
      ∀ now,
        (∀ a client, (l.issue a client now).1 = none
          ↔ l.live? a now = none ∧ capacity ≤ l.liveCount now) ∧
        (∀ a client e, l.live? a now = some e → (l.issue a client now).1 = some e.server) ∧
        (∀ a server, (l.validate a server now).1 = false → (l.validate a server now).2 = l) ∧
        ∀ op b e, op.address? ≠ some b → l.live? b now = some e →
          entry? (l.act now op).2 b = some e) ∧
    ∀ ops', (ops.map Prod.fst).Pairwise (· ≤ ·) → (ops'.map Prod.fst).Pairwise (· ≤ ·) →
      requests ops' = requests ops →
      (empty lifetime capacity supply).answers ops' = (empty lifetime capacity supply).answers ops := by
  have hempty := Sound.empty lifetime capacity supply
  constructor
  · intro l
    have hl : Sound l := hempty.after ops
    obtain ⟨hlifetime, hcapacity⟩ := settings_after hempty ops
    refine ⟨hlifetime, Nat.le_trans hl.fits (Nat.le_of_eq hcapacity), hl.keys, fun now => ?_⟩
    refine ⟨fun a client => ?_, fun a client e he => ?_, fun a server hbad => ?_, ?_⟩
    · have hfull : l.capacity = capacity := hcapacity
      rw [hl.issue_eq_none_iff, hfull]
    · unfold issue
      rw [he]
    · rcases validate_cases l a server now with ⟨e, -, -, heq⟩ | ⟨-, heq⟩
      · rw [heq] at hbad
        cases hbad
      · rw [heq]
    · intro op b e hb hlive
      exact hl.entry?_act hb hlive
  · intro ops' hops hops' hsame
    have hstart := Alike.refl 0 (empty lifetime capacity supply)
    have hzero : ∀ {ts : List Time}, ts.Pairwise (· ≤ ·) → (0 :: ts).Pairwise (· ≤ ·) :=
      fun h => List.pairwise_cons.mpr ⟨fun _ _ => Nat.zero_le _, h⟩
    rw [answers_requests hstart hempty hempty (hzero hops), ← hsame,
      ← answers_requests hstart hempty hempty (hzero hops')]

theorem lawful_contended :
    let first := SocketAddress.v4 ⟨10, 0, 0, 1⟩ 40000
    let second := SocketAddress.v4 ⟨10, 0, 0, 2⟩ 40000
    let start := empty 10 1 fun n => Int32.ofNat (n + 7)
    let l := start.after [(0, .issue first 1)]
    let e : Entry := ⟨7, 1, 0⟩
    (l.issue second 2 5).1 = none ∧ (l.issue first 3 10).1 = some 7 ∧
      (l.validate first 8 5).2 = l ∧ entry? (l.act 10 (.issue second 2)).2 first = some e ∧
      start.answers [(0, .issue first 1), (10, .purge), (10, .issue second 2), (11, .purge),
          (11, .issue second 2)]
        = start.answers [(0, .issue first 1), (10, .issue second 2), (11, .issue second 2)] := by
  intro first second start l e
  obtain ⟨⟨-, -, -, hl⟩, -⟩ :=
    lawful_after 10 1 (fun n => Int32.ofNat (n + 7)) [(0, .issue first 1)]
  have hlive : ∀ now ≤ 10, l.live? first now = some e := fun now hle =>
    live?_eq_some_iff.mpr ⟨by decide, hle⟩
  refine ⟨?_, ?_, ?_, ?_, ?_⟩
  · exact ((hl 5).1 second 2).mpr ⟨by decide, by decide⟩
  · exact (hl 10).2.1 first 3 e (hlive 10 (Nat.le_refl 10))
  · exact (hl 5).2.2.1 first 8 (by decide)
  · exact (hl 10).2.2.2 (.issue second 2) first e (by decide) (hlive 10 (Nat.le_refl 10))
  · exact (lawful_after 10 1 (fun n => Int32.ofNat (n + 7))
      [(0, .issue first 1), (10, .issue second 2), (11, .issue second 2)]).2 _ (by decide)
      (by decide) (by decide)

end ServerDiscovery.Token.Ledger
