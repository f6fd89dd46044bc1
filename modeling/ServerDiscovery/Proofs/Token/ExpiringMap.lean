import Mathlib.Data.Finset.Card
import ServerDiscovery.Proofs.Token.Store

/-! A store of tokens keeps an agenda beside its tokens and works it off lazily. A map of tokens alone,
from which each sweep takes whatever is not valid any more, gives the same answers and has the same
size after every sequence of operations, at whatever instants they are made. -/

namespace ServerDiscovery.Token

/-- A finite map from endpoints to tokens: what is found at each endpoint, and where anything is. -/
structure ExpiringMap where
  find? : Endpoint → Option Token
  domain : Finset Endpoint
  mem_domain : ∀ e, e ∈ domain ↔ (find? e).isSome = true

namespace ExpiringMap

def empty : ExpiringMap := ⟨fun _ => none, ∅, by simp⟩

def size (m : ExpiringMap) : Nat := m.domain.card

def put (m : ExpiringMap) (e : Endpoint) (t : Token) : ExpiringMap where
  find? e' := if e' = e then some t else m.find? e'
  domain := insert e m.domain
  mem_domain e' := by
    by_cases h : e' = e
    · simp [h]
    · simp [h, m.mem_domain]

def remove (m : ExpiringMap) (e : Endpoint) : ExpiringMap where
  find? e' := if e' = e then none else m.find? e'
  domain := m.domain.erase e
  mem_domain e' := by
    by_cases h : e' = e
    · simp [h]
    · simp [h, m.mem_domain]

def holdsValid (m : ExpiringMap) (now : Time) (e : Endpoint) : Bool :=
  (m.find? e).any fun t => t.isValid now

def keepValid (m : ExpiringMap) (now : Time) : ExpiringMap where
  find? e := (m.find? e).filter fun t => t.isValid now
  domain := m.domain.filter fun e => m.holdsValid now e
  mem_domain e := by
    rw [Finset.mem_filter, m.mem_domain, holdsValid]
    cases m.find? e <;> simp [Option.isSome_filter]

def sweep (m : ExpiringMap) (now : Time) : Nat × ExpiringMap :=
  ((m.domain.filter fun e => ¬ m.holdsValid now e).card, m.keepValid now)

def get (m : ExpiringMap) (e : Endpoint) (now : Time) : Option Token × ExpiringMap :=
  ((m.sweep now).2.find? e, (m.sweep now).2)

def insert (m : ExpiringMap) (e : Endpoint) (t : Token) (now : Time) : ExpiringMap :=
  if t.isValid now then (m.sweep now).2.put e t else (m.sweep now).2

end ExpiringMap

inductive Store.Op where
  | insert (e : Endpoint) (t : Token) (now : Time)
  | get (e : Endpoint) (now : Time)
  | remove (e : Endpoint)
  | sweep (now : Time)

inductive Store.Result where
  | done
  | token (found : Option Token)
  | dropped (count : Nat)
  deriving DecidableEq

def Store.act (s : Store) : Op → Result × Store
  | .insert e t now => (.done, s.insert e t now)
  | .get e now => (.token (s.get e now).1, (s.get e now).2)
  | .remove e => (.token (s.erase e).1, (s.erase e).2)
  | .sweep now => (.dropped (s.sweep now).1, (s.sweep now).2)

def ExpiringMap.act (m : ExpiringMap) : Store.Op → Store.Result × ExpiringMap
  | .insert e t now => (.done, m.insert e t now)
  | .get e now => (.token (m.get e now).1, (m.get e now).2)
  | .remove e => (.token (m.find? e), m.remove e)
  | .sweep now => (.dropped (m.sweep now).1, (m.sweep now).2)

def trace {σ : Type} (act : σ → Store.Op → Store.Result × σ) (size : σ → Nat) :
    σ → List Store.Op → List (Store.Result × Nat)
  | _, [] => []
  | s, op :: ops => ((act s op).1, size (act s op).2) :: trace act size (act s op).2 ops

namespace Store

def after (s : Store) (ops : List Op) : Store := ops.foldl (fun s op => (s.act op).2) s

variable {tokens : List (Endpoint × Token)} {agenda : List (Time × Endpoint)} {e : Endpoint}
  {t : Token} {now due x : Time}

theorem mem_enlist {entry a : Time × Endpoint} :
    a ∈ enlist entry agenda ↔ a = entry ∨ a ∈ agenda := by
  induction agenda with
  | nil => simp [enlist]
  | cons head agenda ih =>
    simp only [enlist]
    split_ifs
    · simp only [List.mem_cons, ih, or_left_comm]
    · simp only [List.mem_cons]

theorem le_of_before {a b : Time × Endpoint} (h : before a b = true) : a.1 ≤ b.1 := by
  simp only [before, Bool.or_eq_true, Bool.and_eq_true, decide_eq_true_eq] at h
  rcases h with hlt | ⟨heq, -⟩
  · exact Nat.le_of_lt hlt
  · exact Nat.le_of_eq heq

theorem le_of_not_before {a b : Time × Endpoint} (h : ¬ before a b = true) : b.1 ≤ a.1 := by
  simp only [before, Bool.or_eq_true, decide_eq_true_eq, not_or, Nat.not_lt] at h
  exact h.1

theorem pairwise_enlist {entry : Time × Endpoint}
    (h : agenda.Pairwise fun a b => a.1 ≤ b.1) :
    (enlist entry agenda).Pairwise fun a b => a.1 ≤ b.1 := by
  induction agenda with
  | nil => exact List.pairwise_singleton _ _
  | cons head agenda ih =>
    obtain ⟨hhead, htail⟩ := List.pairwise_cons.mp h
    simp only [enlist]
    split_ifs with hbefore
    · refine List.pairwise_cons.mpr ⟨fun a ha => ?_, ih htail⟩
      rcases mem_enlist.mp ha with rfl | ha
      · exact le_of_before hbefore
      · exact hhead a ha
    · have hle := le_of_not_before hbefore
      refine List.pairwise_cons.mpr ⟨fun a ha => ?_, h⟩
      rcases List.mem_cons.mp ha with rfl | ha
      · exact hle
      · exact Nat.le_trans hle (hhead a ha)

/-- The agenda is in the order of expiry and names each token that is held. -/
structure Indexed (tokens : List (Endpoint × Token)) (agenda : List (Time × Endpoint)) : Prop where
  keys : (tokens.map Prod.fst).Nodup
  ordered : agenda.Pairwise fun a b => a.1 ≤ b.1
  named : ∀ e t, tokens.lookup e = some t → ∃ x, t.expires? = some x ∧ (x, e) ∈ agenda

namespace Indexed

theorem skip (h : Indexed tokens ((due, e) :: agenda)) (hdue : due ≤ now)
    (hstale : ¬ ((tokens.lookup e).bind expires?).any (· ≤ now) = true) : Indexed tokens agenda where
  keys := h.keys
  ordered := (List.pairwise_cons.mp h.ordered).2
  named e' t ht := by
    obtain ⟨x, hx, hmem⟩ := h.named e' t ht
    rcases List.mem_cons.mp hmem with heq | hmem
    · obtain ⟨rfl, rfl⟩ := Prod.mk.inj heq
      simp only [ht, Option.bind_some, hx, Option.any_some, decide_eq_true_eq] at hstale
      exact absurd hdue hstale
    · exact ⟨x, hx, hmem⟩

theorem drop (h : Indexed tokens ((due, e) :: agenda)) : Indexed (removeKey tokens e) agenda where
  keys := Keyed.nodup_filter h.keys _
  ordered := (List.pairwise_cons.mp h.ordered).2
  named e' t ht := by
    rw [lookup_removeKey] at ht
    split_ifs at ht with he
    obtain ⟨x, hx, hmem⟩ := h.named e' t ht
    have hne : (x, e') ≠ (due, e) := fun heq => he (Prod.mk.inj heq).2
    exact ⟨x, hx, (List.mem_cons.mp hmem).resolve_left hne⟩

theorem sweepAgenda (h : Indexed tokens agenda) (now : Time) :
    Indexed (Store.sweepAgenda now tokens agenda).1 (Store.sweepAgenda now tokens agenda).2.1 ∧
      (Store.sweepAgenda now tokens agenda).2.2 + (Store.sweepAgenda now tokens agenda).1.length
        = tokens.length ∧
      ∀ entry ∈ (Store.sweepAgenda now tokens agenda).2.1, now < entry.1 := by
  induction agenda generalizing tokens with
  | nil => exact ⟨h, Nat.zero_add _, by simp [Store.sweepAgenda]⟩
  | cons entry agenda ih =>
    obtain ⟨due, e⟩ := entry
    simp only [Store.sweepAgenda]
    split_ifs with hdue hexpired
    · have hlater := (List.pairwise_cons.mp h.ordered).1
      refine ⟨h, Nat.zero_add _, fun entry hentry => ?_⟩
      rcases List.mem_cons.mp hentry with rfl | hentry
      · exact hdue
      · exact Nat.lt_of_lt_of_le hdue (hlater entry hentry)
    · obtain ⟨hindexed, hcount, hleft⟩ := ih h.drop
      obtain ⟨t, ht⟩ : ∃ t, tokens.lookup e = some t := by
        cases hlookup : tokens.lookup e with
        | none => simp [hlookup] at hexpired
        | some t => exact ⟨t, rfl⟩
      have hone : (removeKey tokens e).length + 1 = tokens.length :=
        Keyed.length_without h.keys ht
      refine ⟨hindexed, ?_, hleft⟩
      rw [← hone, ← hcount]
      exact Nat.add_right_comm ..
    · exact ih (h.skip (Nat.not_lt.mp hdue) hexpired)

theorem lookup_swept (h : Indexed tokens agenda) (now : Time) (e : Endpoint) :
    (Store.sweepAgenda now tokens agenda).1.lookup e
      = (tokens.lookup e).filter fun t => t.isValid now := by
  obtain ⟨hindexed, -, hleft⟩ := h.sweepAgenda now
  cases hfound : (Store.sweepAgenda now tokens agenda).1.lookup e with
  | some t =>
    obtain ⟨x, hx, hmem⟩ := hindexed.named e t hfound
    have hvalid : t.isValid now = true := isValid_iff.mpr ⟨x, hx, hleft _ hmem⟩
    rw [lookup_sweepAgenda now tokens agenda hfound, Option.filter_some, if_pos hvalid]
  | none =>
    symm
    rw [Option.filter_eq_none_iff]
    intro t ht hvalid
    obtain ⟨x, hx, hlt⟩ := isValid_iff.mp hvalid
    rw [lookup_sweepAgenda_of_lt now tokens agenda ht hx hlt] at hfound
    cases hfound

end Indexed

/-- A store that is indexed and holds what the map holds. -/
structure Mirrors (s : Store) (m : ExpiringMap) : Prop extends Indexed s.tokens s.agenda where
  found : ∀ e, s.token? e = m.find? e

namespace Mirrors

variable {s : Store} {m : ExpiringMap}

theorem empty : Mirrors .empty .empty where
  keys := List.nodup_nil
  ordered := List.Pairwise.nil
  named e t ht := by cases ht
  found _ := rfl

theorem size (h : Mirrors s m) : s.size = m.size := by
  have hdomain : (s.tokens.map Prod.fst).toFinset = m.domain := by
    ext e
    rw [m.mem_domain, ← h.found, List.mem_toFinset, token?, Keyed.mem_keys_iff]
  rw [ExpiringMap.size, ← hdomain, List.toFinset_card_of_nodup h.keys, List.length_map]
  rfl

theorem swept (h : Mirrors s m) (now : Time) :
    Mirrors (s.sweep now).2 (m.keepValid now) where
  toIndexed := (h.sweepAgenda now).1
  found e := by
    have hfound : s.tokens.lookup e = m.find? e := h.found e
    exact (h.lookup_swept now e).trans (by rw [hfound]; rfl)

theorem sweep (h : Mirrors s m) (now : Time) :
    (s.sweep now).1 = (m.sweep now).1 ∧ Mirrors (s.sweep now).2 (m.sweep now).2 := by
  have hcount : (s.sweep now).1 + (s.sweep now).2.size = s.size := (h.sweepAgenda now).2.1
  have hsplit := Finset.card_filter_add_card_filter_not (s := m.domain)
    fun e => m.holdsValid now e = true
  have hkept : (s.sweep now).2.size = (m.domain.filter fun e => m.holdsValid now e).card :=
    (h.swept now).size
  have hall : s.size = m.domain.card := h.size
  refine ⟨?_, h.swept now⟩
  change (s.sweep now).1 = (m.domain.filter fun e => ¬ m.holdsValid now e).card
  omega

theorem remove (h : Mirrors s m) (e : Endpoint) : Mirrors (s.erase e).2 (m.remove e) where
  keys := Keyed.nodup_filter h.keys _
  ordered := h.ordered
  named e' t ht := by
    have hlookup : (removeKey s.tokens e).lookup e' = some t := ht
    rw [lookup_removeKey] at hlookup
    split_ifs at hlookup
    exact h.named e' t hlookup
  found e' := by
    change (removeKey s.tokens e).lookup e' = if e' = e then none else m.find? e'
    rw [lookup_removeKey, ← h.found]
    rfl

theorem put (h : Mirrors s m) (e : Endpoint) (hx : t.expires? = some x) :
    Mirrors ⟨(e, t) :: removeKey s.tokens e, enlist (x, e) s.agenda⟩ (m.put e t) where
  keys := Keyed.nodup_put h.keys e t
  ordered := pairwise_enlist h.ordered
  named e' t' ht := by
    by_cases he : e' = e
    · subst he
      rw [List.lookup_cons, beq_self_eq_true] at ht
      obtain rfl : t = t' := Option.some.inj ht
      exact ⟨x, hx, mem_enlist.mpr (.inl rfl)⟩
    · rw [List.lookup_cons, beq_eq_false_iff_ne.mpr he, lookup_removeKey, if_neg he] at ht
      obtain ⟨y, hy, hmem⟩ := h.named e' t' ht
      exact ⟨y, hy, mem_enlist.mpr (.inr hmem)⟩
  found e' := by
    change List.lookup e' _ = if e' = e then some t else m.find? e'
    by_cases he : e' = e
    · subst he
      rw [List.lookup_cons, beq_self_eq_true, if_pos rfl]
    · rw [List.lookup_cons, beq_eq_false_iff_ne.mpr he, if_neg he, lookup_removeKey, if_neg he,
        ← h.found]
      rfl

theorem insert (h : Mirrors s m) (e : Endpoint) (t : Token) (now : Time) :
    Mirrors (s.insert e t now) (m.insert e t now) := by
  have hswept := (h.sweep now).2
  unfold Store.insert ExpiringMap.insert
  cases hx : t.expires? with
  | none =>
    have hinvalid : t.isValid now = false := by
      apply Bool.eq_false_iff.mpr
      intro hvalid
      obtain ⟨x, hx', -⟩ := isValid_iff.mp hvalid
      simp [hx] at hx'
    simpa [hinvalid] using hswept
  | some x =>
    have hvalid : t.isValid now = true ↔ ¬ x ≤ now := by
      rw [isValid_iff, hx, Nat.not_le]
      simp
    by_cases hle : x ≤ now
    · have hinvalid : ¬ t.isValid now = true := fun hv => hvalid.mp hv hle
      simpa only [if_pos hle, if_neg hinvalid] using hswept
    · simpa only [if_neg hle, if_pos (hvalid.mpr hle)] using hswept.put e hx

theorem act (h : Mirrors s m) (op : Op) :
    (s.act op).1 = (m.act op).1 ∧ Mirrors (s.act op).2 (m.act op).2 := by
  cases op with
  | insert e t now => exact ⟨rfl, h.insert e t now⟩
  | get e now =>
    have hswept := (h.sweep now).2
    exact ⟨congrArg Result.token (hswept.found e), hswept⟩
  | remove e => exact ⟨congrArg Result.token (h.found e), h.remove e⟩
  | sweep now =>
    obtain ⟨hcount, hswept⟩ := h.sweep now
    exact ⟨congrArg Result.dropped hcount, hswept⟩

theorem trace (h : Mirrors s m) (ops : List Op) :
    Token.trace Store.act Store.size s ops = Token.trace ExpiringMap.act ExpiringMap.size m ops := by
  induction ops generalizing s m with
  | nil => rfl
  | cons op ops ih =>
    obtain ⟨hresult, hnext⟩ := h.act op
    simp only [Token.trace, hresult, hnext.size, ih hnext]

theorem after (h : Mirrors s m) (ops : List Op) : ∃ m', Mirrors (s.after ops) m' := by
  induction ops generalizing s m with
  | nil => exact ⟨m, h⟩
  | cons op ops ih => exact ih (h.act op).2

end Mirrors

/-- After any operations, at whatever instants, the store has answered as the map would and has its
size. It gives out valid tokens only, loses none to a stale entry of its agenda, and its agenda names
every token that it holds, with its own expiry. -/
theorem refines_expiringMap (ops : List Op) :
    Token.trace Store.act Store.size .empty ops
        = Token.trace ExpiringMap.act ExpiringMap.size .empty ops ∧
      (∀ e now t, ((Store.empty.after ops).get e now).1 = some t → t.isValid now = true) ∧
      (∀ e now t, (Store.empty.after ops).token? e = some t → t.isValid now = true →
        ((Store.empty.after ops).sweep now).2.token? e = some t) ∧
      ∀ e t, (Store.empty.after ops).token? e = some t →
        ∃ x, t.expires? = some x ∧ (x, e) ∈ (Store.empty.after ops).agenda := by
  obtain ⟨m, h⟩ := Mirrors.empty.after ops
  refine ⟨Mirrors.empty.trace ops, fun e now t ht => ?_, fun e now t ht hvalid => ?_, h.named⟩
  · have hswept := h.lookup_swept now e
    exact (Option.filter_eq_some_iff.mp (hswept.symm.trans ht)).2
  · obtain ⟨x, hx, hlt⟩ := isValid_iff.mp hvalid
    exact token?_sweep_of_lt ht hx hlt

end Store
end ServerDiscovery.Token
