import ServerDiscovery.Proofs.Keyed
import ServerDiscovery.Token.Ledger

/-! What the operations of a ledger do to its live entries. Dead entries linger and count towards the
capacity, but what an operation does follows from the live ones alone. -/

namespace ServerDiscovery.Token.Ledger

variable {l : Ledger} {a b : SocketAddress} {e : Entry} {client server : Int32}
  {now t lifetime : Time}

def liveCount (l : Ledger) (now : Time) : Nat :=
  l.entries.countP fun entry => entry.2.isLive l.lifetime now

/-- One entry for an address at most, and no more entries than there is room for. -/
structure Sound (l : Ledger) : Prop where
  keys : (l.entries.map Prod.fst).Nodup
  fits : l.size ≤ l.capacity

theorem Sound.empty (lifetime capacity : Nat) (supply : Supply) :
    Sound (.empty lifetime capacity supply) :=
  ⟨List.nodup_nil, Nat.zero_le _⟩

@[simp] theorem Entry.isLive_iff : e.isLive lifetime now = true ↔ now ≤ e.lastSeen + lifetime :=
  decide_eq_true_iff.trans Nat.sub_le_iff_le_add'

theorem live?_eq_some_iff :
    l.live? a now = some e ↔ l.entry? a = some e ∧ now ≤ e.lastSeen + l.lifetime := by
  unfold live?
  rw [Option.filter_eq_some_iff, Entry.isLive_iff]

theorem live?_of_le (h : l.live? a t = some e) (hle : now ≤ t) : l.live? a now = some e := by
  obtain ⟨he, hlive⟩ := live?_eq_some_iff.mp h
  exact live?_eq_some_iff.mpr ⟨he, Nat.le_trans hle hlive⟩

theorem live?_eq_none_of_le (h : l.live? a now = none) (hle : now ≤ t) : l.live? a t = none := by
  cases ht : l.live? a t with
  | none => rfl
  | some e =>
    rw [live?_of_le ht hle] at h
    cases h

/-! ### Writing and purging -/

@[simp] theorem put_lifetime (l : Ledger) (a : SocketAddress) (e : Entry) :
    (l.put a e).lifetime = l.lifetime := rfl
@[simp] theorem put_drawn (l : Ledger) (a : SocketAddress) (e : Entry) :
    (l.put a e).drawn = l.drawn := rfl

theorem entry?_put (l : Ledger) (a : SocketAddress) (e : Entry) (b : SocketAddress) :
    entry? (l.put a e) b = if b = a then some e else l.entry? b := by
  unfold entry? put
  by_cases hb : b = a
  · subst hb
    rw [List.lookup_cons, beq_self_eq_true, if_pos rfl]
  · rw [List.lookup_cons, beq_eq_false_iff_ne.mpr hb, if_neg hb, Keyed.lookup_without, if_neg hb]

theorem live?_put_of_ne (h : b ≠ a) : (l.put a e).live? b t = l.live? b t := by
  unfold live?
  rw [entry?_put, if_neg h]
  rfl

theorem live?_put_self (l : Ledger) (a : SocketAddress) (e : Entry) (t : Time) :
    (l.put a e).live? a t = if t ≤ e.lastSeen + l.lifetime then some e else none := by
  unfold live?
  rw [entry?_put, if_pos rfl, Option.filter_some]
  simp only [put_lifetime, Entry.isLive_iff]

theorem live?_put (h : now ≤ e.lastSeen + l.lifetime) : (l.put a e).live? a now = some e :=
  (live?_put_self l a e now).trans (if_pos h)

theorem size_put_le (l : Ledger) (a : SocketAddress) (e : Entry) : (l.put a e).size ≤ l.size + 1 :=
  Nat.succ_le_succ (List.length_filter_le ..)

theorem Sound.put_of_live (h : Sound l) (hlive : l.live? a now = some e) (e' : Entry) :
    Sound (l.put a e') := by
  have hlookup : l.entries.lookup a = some e := (live?_eq_some_iff.mp hlive).1
  have hlength := Keyed.length_without h.keys hlookup
  have hsize : (l.put a e').size = l.size := hlength
  exact ⟨Keyed.nodup_put h.keys a e', hsize ▸ h.fits⟩

theorem purge_eq (l : Ledger) (now : Time) :
    (l.purge now).2 =
      { l with entries := l.entries.filter fun entry => entry.2.isLive l.lifetime now } := rfl

theorem size_purge (l : Ledger) (now : Time) : (l.purge now).2.size = l.liveCount now :=
  List.countP_eq_length_filter.symm

theorem liveCount_le (l : Ledger) (now : Time) : l.liveCount now ≤ l.size :=
  List.countP_le_length

theorem Sound.purge (h : Sound l) (now : Time) : Sound (l.purge now).2 where
  keys := Keyed.nodup_filter h.keys _
  fits := by
    rw [size_purge]
    exact Nat.le_trans (liveCount_le l now) h.fits

theorem entry?_purge_of_live (h : l.live? b now = some e) :
    entry? (l.purge now).2 b = some e := by
  obtain ⟨hlookup, hlive⟩ := live?_eq_some_iff.mp h
  have hkept : e.isLive l.lifetime now = true := Entry.isLive_iff.mpr hlive
  exact Keyed.lookup_keep_of_pos (p := fun e => e.isLive l.lifetime now) hlookup hkept

theorem Sound.entry?_purge (h : Sound l) (b : SocketAddress) (now : Time) :
    entry? (l.purge now).2 b = l.live? b now :=
  Keyed.lookup_keep h.keys b fun e => e.isLive l.lifetime now

theorem Sound.live?_purge (h : Sound l) (b : SocketAddress) (hle : now ≤ t) :
    (l.purge now).2.live? b t = l.live? b t := by
  cases ht : l.live? b t with
  | some e =>
    have hentry := entry?_purge_of_live (live?_of_le ht hle)
    exact live?_eq_some_iff.mpr ⟨hentry, (live?_eq_some_iff.mp ht).2⟩
  | none =>
    -- What a purge drops was dead already and would have stayed so.
    rw [Option.eq_none_iff_forall_ne_some]
    intro e he
    obtain ⟨hentry, hlive⟩ := live?_eq_some_iff.mp he
    rw [h.entry?_purge] at hentry
    rw [live?_eq_some_iff.mpr ⟨(live?_eq_some_iff.mp hentry).1, hlive⟩] at ht
    cases ht

/-! ### What an operation can do -/

theorem issue_eq_of_live (h : l.live? a now = some e) (client : Int32) :
    l.issue a client now = (some e.server, l.put a { e with client, lastSeen := now }) := by
  unfold issue
  rw [h]

theorem purge_dropped (l : Ledger) (now : Time) : (l.purge now).1 = l.size - l.liveCount now := by
  rw [← size_purge]
  rfl

theorem Sound.issue_eq_of_full (h : Sound l) (hnone : l.live? a now = none)
    (hfull : l.capacity ≤ l.liveCount now) (client : Int32) :
    l.issue a client now = (none, l) := by
  have hall : l.liveCount now = l.size :=
    Nat.le_antisymm (liveCount_le l now) (Nat.le_trans h.fits hfull)
  have hroom : ¬ l.size < l.capacity := Nat.not_lt.mpr (hall ▸ hfull)
  have hnothing : (l.purge now).1 = 0 := by rw [purge_dropped, hall, Nat.sub_self]
  -- With nothing dead to drop, a purge is no change.
  have hkept : (l.purge now).2 = l := by
    have hlives := List.filter_eq_self.mpr (List.countP_eq_length.mp hall)
    rw [purge_eq, hlives]
  unfold issue
  rw [hnone]
  dsimp only
  rw [if_neg hroom, if_pos hnothing, hkept]

theorem issue_eq_of_room (hnone : l.live? a now = none) (hcount : l.liveCount now < l.capacity)
    (client : Int32) :
    ∃ l₀, (l₀ = l ∨ l₀ = (l.purge now).2) ∧ l₀.size < l.capacity ∧
      l.issue a client now = (some (l.supply l.drawn), (l₀.grant a client now).2) := by
  unfold issue
  rw [hnone]
  dsimp only
  by_cases hroom : l.size < l.capacity
  · rw [if_pos hroom]
    exact ⟨l, .inl rfl, hroom, rfl⟩
  · have hsome : (l.purge now).1 ≠ 0 := by
      rw [purge_dropped]
      exact Nat.sub_ne_zero_of_lt (Nat.lt_of_lt_of_le hcount (Nat.not_lt.mp hroom))
    rw [if_neg hroom, if_neg hsome]
    exact ⟨(l.purge now).2, .inr rfl, by rwa [size_purge], rfl⟩

theorem Sound.issue_cases (h : Sound l) (a : SocketAddress) (client : Int32) (now : Time) :
    (∃ e, l.live? a now = some e ∧
        l.issue a client now = (some e.server, l.put a { e with client, lastSeen := now })) ∨
      (l.live? a now = none ∧ l.capacity ≤ l.liveCount now ∧ l.issue a client now = (none, l)) ∨
      (l.live? a now = none ∧ l.liveCount now < l.capacity ∧
        ∃ l₀, (l₀ = l ∨ l₀ = (l.purge now).2) ∧ l₀.size < l.capacity ∧
          l.issue a client now = (some (l.supply l.drawn), (l₀.grant a client now).2)) := by
  cases hlive : l.live? a now with
  | some e => exact .inl ⟨e, rfl, issue_eq_of_live hlive client⟩
  | none =>
    rcases Nat.lt_or_ge (l.liveCount now) l.capacity with hcount | hfull
    · exact .inr (.inr ⟨rfl, hcount, issue_eq_of_room hlive hcount client⟩)
    · exact .inr (.inl ⟨rfl, hfull, h.issue_eq_of_full hlive hfull client⟩)

theorem validate_cases (l : Ledger) (a : SocketAddress) (server : Int32) (now : Time) :
    (∃ e, l.live? a now = some e ∧ e.server = server ∧
        l.validate a server now = (true, l.put a { e with lastSeen := now })) ∨
      ((∀ e, l.live? a now = some e → e.server ≠ server) ∧
        l.validate a server now = (false, l)) := by
  unfold validate
  cases hlive : l.live? a now with
  | none => exact .inr ⟨nofun, rfl⟩
  | some e =>
    dsimp only
    by_cases hserver : e.server = server
    · rw [if_pos hserver]
      exact .inl ⟨e, rfl, hserver, rfl⟩
    · rw [if_neg hserver]
      refine .inr ⟨fun e' he' => ?_, rfl⟩
      obtain rfl : e = e' := Option.some.inj he'
      exact hserver

theorem Sound.grant (h : Sound l) (hroom : l.size < l.capacity) (a : SocketAddress)
    (client : Int32) (now : Time) : Sound (l.grant a client now).2 :=
  ⟨Keyed.nodup_put h.keys a _, Nat.le_trans (size_put_le l a _) hroom⟩

theorem Sound.issue (h : Sound l) (a : SocketAddress) (client : Int32) (now : Time) :
    Sound (l.issue a client now).2 := by
  rcases h.issue_cases a client now with
    ⟨e, hlive, heq⟩ | ⟨-, -, heq⟩ | ⟨-, -, l₀, hl₀, hroom, heq⟩
  · rw [heq]
    exact h.put_of_live hlive _
  · rwa [heq]
  · rw [heq]
    rcases hl₀ with rfl | rfl
    · exact h.grant hroom a client now
    · exact (h.purge now).grant hroom a client now

theorem Sound.validate (h : Sound l) (a : SocketAddress) (server : Int32) (now : Time) :
    Sound (l.validate a server now).2 := by
  rcases validate_cases l a server now with ⟨e, hlive, -, heq⟩ | ⟨-, heq⟩
  · rw [heq]
    exact h.put_of_live hlive _
  · rwa [heq]

theorem Sound.settings_issue (h : Sound l) (a : SocketAddress) (client : Int32) (now : Time) :
    (l.issue a client now).2.lifetime = l.lifetime ∧
      (l.issue a client now).2.capacity = l.capacity := by
  rcases h.issue_cases a client now with ⟨e, -, heq⟩ | ⟨-, -, heq⟩ | ⟨-, -, l₀, hl₀, -, heq⟩
  · rw [heq]
    exact ⟨rfl, rfl⟩
  · rw [heq]
    exact ⟨rfl, rfl⟩
  · rw [heq]
    rcases hl₀ with rfl | rfl <;> exact ⟨rfl, rfl⟩

theorem settings_validate (l : Ledger) (a : SocketAddress) (server : Int32) (now : Time) :
    (l.validate a server now).2.lifetime = l.lifetime ∧
      (l.validate a server now).2.capacity = l.capacity := by
  rcases validate_cases l a server now with ⟨e, -, -, heq⟩ | ⟨-, heq⟩
  · rw [heq]
    exact ⟨rfl, rfl⟩
  · rw [heq]
    exact ⟨rfl, rfl⟩

theorem issue_of_live (h : l.live? a now = some e) (client : Int32) :
    (l.issue a client now).1 = some e.server ∧
      ∃ e', (l.issue a client now).2.live? a now = some e' ∧ e'.server = e.server := by
  rw [issue_eq_of_live h]
  exact ⟨rfl, _, live?_put (Nat.le_add_right ..), rfl⟩

theorem issue_of_room (h : l.live? a now = none) (hroom : l.size < l.capacity) (client : Int32) :
    ∃ server, (l.issue a client now).1 = some server ∧
      ∃ e, (l.issue a client now).2.live? a now = some e ∧ e.server = server := by
  unfold issue
  rw [h]
  dsimp only
  rw [if_pos hroom]
  exact ⟨_, rfl, _, live?_put (Nat.le_add_right ..), rfl⟩

theorem validate_of_live (h : l.live? a now = some e) :
    (l.validate a e.server now).1 = true ∧
      ∃ e', (l.validate a e.server now).2.live? a now = some e' ∧ e'.server = e.server := by
  unfold validate
  rw [h]
  dsimp only
  rw [if_pos rfl]
  exact ⟨rfl, _, live?_put (Nat.le_add_right ..), rfl⟩

/-! ### Other addresses -/

theorem entry?_grant_of_ne (h : b ≠ a) : entry? (l.grant a client now).2 b = l.entry? b :=
  (entry?_put { l with drawn := l.drawn + 1 } a _ b).trans (if_neg h)

theorem live?_grant_of_ne (h : b ≠ a) : (l.grant a client now).2.live? b t = l.live? b t :=
  live?_put_of_ne h

theorem Sound.entry?_issue_of_ne (h : Sound l) (hne : b ≠ a) (hlive : l.live? b now = some e) :
    entry? (l.issue a client now).2 b = some e := by
  have hentry := (live?_eq_some_iff.mp hlive).1
  rcases h.issue_cases a client now with ⟨e, -, heq⟩ | ⟨-, -, heq⟩ | ⟨-, -, l₀, hl₀, -, heq⟩
  · rwa [heq, entry?_put, if_neg hne]
  · rwa [heq]
  · rw [heq, entry?_grant_of_ne hne]
    rcases hl₀ with rfl | rfl
    · exact hentry
    · exact entry?_purge_of_live hlive

theorem entry?_validate_of_ne (hne : b ≠ a) (hlive : l.live? b now = some e) :
    entry? (l.validate a server now).2 b = some e := by
  have hentry := (live?_eq_some_iff.mp hlive).1
  rcases validate_cases l a server now with ⟨e, -, -, heq⟩ | ⟨-, heq⟩
  · rwa [heq, entry?_put, if_neg hne]
  · rwa [heq]

theorem Sound.live?_issue_of_ne (h : Sound l) (hne : b ≠ a) (hle : now ≤ t) :
    (l.issue a client now).2.live? b t = l.live? b t := by
  rcases h.issue_cases a client now with ⟨e, -, heq⟩ | ⟨-, -, heq⟩ | ⟨-, -, l₀, hl₀, -, heq⟩
  · rw [heq, live?_put_of_ne hne]
  · rw [heq]
  · rw [heq, live?_grant_of_ne hne]
    rcases hl₀ with rfl | rfl
    · rfl
    · exact h.live?_purge b hle

theorem live?_validate_of_ne (hne : b ≠ a) :
    (l.validate a server now).2.live? b t = l.live? b t := by
  rcases validate_cases l a server now with ⟨e, -, -, heq⟩ | ⟨-, heq⟩
  · rw [heq, live?_put_of_ne hne]
  · rw [heq]

/-! ### The token that an address holds -/

/-- The number of the live token of an address. -/
def held? (l : Ledger) (a : SocketAddress) (now : Time) : Option Int32 :=
  (l.live? a now).map Entry.server

theorem held?_of_le (h : l.held? a t = some server) (hle : now ≤ t) :
    l.held? a now = some server := by
  obtain ⟨e, he, hserver⟩ := Option.map_eq_some_iff.mp h
  unfold held?
  rw [live?_of_le he hle, Option.map_some, hserver]

theorem held?_put_self (l : Ledger) (a : SocketAddress) (e : Entry) (t : Time) :
    (l.put a e).held? a t = if t ≤ e.lastSeen + l.lifetime then some e.server else none := by
  unfold held?
  rw [live?_put_self]
  split_ifs <;> rfl

theorem Sound.held?_purge (h : Sound l) (a : SocketAddress) (hle : now ≤ t) :
    (l.purge now).2.held? a t = l.held? a t :=
  congrArg (Option.map Entry.server) (h.live?_purge a hle)

theorem Sound.held?_issue_of_ne (h : Sound l) (hne : b ≠ a) (hle : now ≤ t) :
    (l.issue a client now).2.held? b t = l.held? b t :=
  congrArg (Option.map Entry.server) (h.live?_issue_of_ne hne hle)

theorem held?_validate_of_ne (hne : b ≠ a) :
    (l.validate a server now).2.held? b t = l.held? b t :=
  congrArg (Option.map Entry.server) (live?_validate_of_ne hne)

theorem Sound.held?_issue (h : Sound l) (a : SocketAddress) (client : Int32) (hle : now ≤ t) :
    (l.issue a client now).2.held? a t
      = if t ≤ now + l.lifetime then (l.issue a client now).1 else none := by
  rcases h.issue_cases a client now with
    ⟨e, he, heq⟩ | ⟨hnone, -, heq⟩ | ⟨hnone, -, l₀, hl₀, -, heq⟩
  · rw [heq]
    exact held?_put_self l a _ t
  · rw [heq, held?, live?_eq_none_of_le hnone hle, ite_self]
    rfl
  · rw [heq]
    rcases hl₀ with rfl | rfl <;> exact held?_put_self _ a _ t

theorem issue_of_held (h : l.held? a now = some server) (client : Int32) :
    (l.issue a client now).1 = some server := by
  obtain ⟨e, he, rfl⟩ := Option.map_eq_some_iff.mp h
  exact (issue_of_live he client).1

theorem Sound.drawn_issue (h : Sound l) (a : SocketAddress) (client : Int32) (now : Time) :
    l.drawn < (l.issue a client now).2.drawn
      ↔ l.held? a now = none ∧ (l.issue a client now).1.isSome = true := by
  unfold held?
  rcases h.issue_cases a client now with
    ⟨e, he, heq⟩ | ⟨hnone, -, heq⟩ | ⟨hnone, -, l₀, hl₀, -, heq⟩
  · rw [heq, he]
    simp
  · rw [heq, hnone]
    simp
  · have hdrawn : (l₀.grant a client now).2.drawn = l.drawn + 1 := by
      rcases hl₀ with rfl | rfl <;> rfl
    rw [heq, hnone, hdrawn]
    simp

theorem validate_eq_true_iff : (l.validate a server now).1 = true ↔ l.held? a now = some server := by
  unfold held?
  rw [Option.map_eq_some_iff]
  rcases validate_cases l a server now with ⟨e, he, hserver, heq⟩ | ⟨hnot, heq⟩
  · rw [heq]
    exact ⟨fun _ => ⟨e, he, hserver⟩, fun _ => rfl⟩
  · rw [heq]
    refine ⟨nofun, ?_⟩
    rintro ⟨e, he, hserver⟩
    exact absurd hserver (hnot e he)

theorem held?_validate (h : l.held? a now = some server) (t : Time) :
    (l.validate a server now).2.held? a t
      = if t ≤ now + l.lifetime then some server else none := by
  obtain ⟨e, he, rfl⟩ := Option.map_eq_some_iff.mp h
  unfold validate
  rw [he]
  dsimp only
  rw [if_pos rfl]
  exact held?_put_self l a _ t

theorem validate_of_not_held (h : l.held? a now ≠ some server) :
    (l.validate a server now).2 = l := by
  rcases validate_cases l a server now with ⟨e, he, rfl, -⟩ | ⟨-, heq⟩
  · exact absurd (Option.map_eq_some_iff.mpr ⟨e, he, rfl⟩) h
  · rw [heq]

end ServerDiscovery.Token.Ledger
