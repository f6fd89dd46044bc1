import ServerDiscovery.Proofs.Host.Holders

/-! What a host counts. Every datagram is received, and settled as one thing: it is dropped, it asks
for a token, it is one of three questions, or it is rejected. A host that drops the first ones has
learned nothing from them. -/

namespace ServerDiscovery.Host

variable {h h' : Host} {role : Role} {settings : Settings} {supply : Token.Supply} {n : Nat}

/-! ### Counters -/

def Stats.settled (s : Stats) : Nat :=
  s.dropped + s.token + s.count + s.list + s.info + s.rejected

theorem Stats.settled_note (s : Stats) (v : Verdict) : (s.note v).settled = s.settled + 1 := by
  rcases v with _ | _ | (_ | _ | _) | _ <;> simp only [note, settled] <;> omega

theorem exists_verdict (h : Host) (now : Time) (datagram : Bytes) (a : SocketAddress) :
    ∃ v, (h.answer now datagram a).2.stats = h.stats.note v ∧ (v = .dropped ↔ h.drops = true) ∧
      (v = .dropped ∨ v = .rejected → (h.answer now datagram a).1 = []) := by
  have hreaction := h.reaction now datagram a
  generalize h.answer now datagram a = after at hreaction ⊢
  cases hreaction with
  | lost hdrops => exact ⟨.dropped, rfl, iff_of_true rfl hdrops, fun _ => rfl⟩
  | requested hdrops => exact ⟨.token, rfl, by simp [hdrops], by simp⟩
  | asked hdrops => exact ⟨_, rfl, by simp [hdrops], by simp⟩
  | refused hdrops | unread hdrops => exact ⟨.rejected, rfl, by simp [hdrops], fun _ => rfl⟩

/-! ### Runs -/

def Event.isDatagram : Event → Bool
  | .datagram .. => true
  | .purge _ => false

def arrivals (events : List Event) : Nat := events.countP Event.isDatagram

theorem arrivals_datagram (now : Time) (a : SocketAddress) (datagram : Bytes) (events : List Event) :
    arrivals (.datagram now a datagram :: events) = arrivals events + 1 :=
  List.countP_cons_of_pos rfl

theorem arrivals_purge (now : Time) (events : List Event) :
    arrivals (.purge now :: events) = arrivals events :=
  List.countP_cons_of_neg Bool.false_ne_true

/-- The books of a host that loses nothing by chance, after so many datagrams. -/
structure Accounted (role : Role) (settings : Settings) (supply : Token.Supply) (n : Nat)
    (h : Host) : Prop where
  plays : h.role = role
  configured : h.settings = settings
  received : h.stats.received = n
  dropped : h.stats.dropped = min n settings.dropFirst
  settled : h.stats.settled = n
  idle : n ≤ settings.dropFirst →
    h.ledger = .empty settings.tokenLifetime settings.maxTokens supply

namespace Accounted

theorem new (role : Role) (settings : Settings) (supply : Token.Supply) :
    Accounted role settings supply 0 (.new role settings supply) :=
  ⟨rfl, rfl, rfl, (Nat.zero_min _).symm, rfl, fun _ => rfl⟩

theorem drops_iff (hh : Accounted role settings supply n h)
    (hloses : ∀ n, settings.loses n = false) : h.drops = true ↔ n < settings.dropFirst := by
  unfold drops
  rw [hh.configured, hh.received, hloses, Bool.or_false, decide_eq_true_iff]

theorem answer (hh : Accounted role settings supply n h) (hloses : ∀ n, settings.loses n = false)
    (now : Time) (datagram : Bytes) (a : SocketAddress) :
    Accounted role settings supply (n + 1) (h.answer now datagram a).2 := by
  obtain ⟨v, hstats, hdropped, -⟩ := h.exists_verdict now datagram a
  have hdrops := hdropped.trans (hh.drops_iff hloses)
  have hcounter := Stats.counter_note h.stats v .dropped
  have hreaction := h.reaction now datagram a
  generalize h.answer now datagram a = after at hstats hreaction ⊢
  refine ⟨?_, ?_, ?_, ?_, ?_, fun hfew => ?_⟩
  · cases hreaction <;> exact hh.plays
  · cases hreaction <;> exact hh.configured
  · rw [hstats, Stats.received_note, hh.received]
  · have hbefore : h.stats.counter .dropped = min n settings.dropFirst := hh.dropped
    rw [← hstats, hbefore] at hcounter
    show after.2.stats.counter .dropped = _
    rw [hcounter]
    split_ifs with hv
    · have hlt := hdrops.mp hv
      omega
    · have hge := Nat.le_of_not_lt (mt hdrops.mpr hv)
      omega
  · rw [hstats, Stats.settled_note, hh.settled]
  · -- Only a datagram that is looked at can reach the ledger.
    have hlost : h.drops = true := (hh.drops_iff hloses).mpr hfew
    cases hreaction with
    | lost => exact hh.idle (Nat.le_of_succ_le hfew)
    | requested hdrops | asked hdrops | refused hdrops | unread hdrops =>
      rw [hlost] at hdrops
      cases hdrops

theorem purge (hh : Accounted role settings supply n h) (now : Time) :
    Accounted role settings supply n (h.purge now) :=
  ⟨hh.plays, hh.configured, hh.received, hh.dropped, hh.settled, fun hfew => by
    unfold Host.purge
    rw [hh.idle hfew]
    rfl⟩

theorem run (hh : Accounted role settings supply n h) (hloses : ∀ n, settings.loses n = false)
    (events : List Event) :
    Accounted role settings supply (n + arrivals events) (h.run events).2 := by
  induction events generalizing n h with
  | nil => exact hh
  | cons event events ih =>
    cases event with
    | datagram now source payload =>
      rw [arrivals_datagram, Nat.add_comm _ 1, ← Nat.add_assoc]
      exact ih (hh.answer hloses now payload source)
    | purge now =>
      rw [arrivals_purge]
      exact ih (hh.purge now)

end Accounted

/-! ### Hosts that answer alike -/

theorem handle_congr (hrole : h.role = h'.role) (hledger : h.ledger = h'.ledger) (now : Time)
    (datagram : Bytes) (a : SocketAddress) : h.handle now datagram a = h'.handle now datagram a := by
  unfold handle
  rw [hrole, hledger]

theorem Receptive.run_congr (hh : Receptive h) (hh' : Receptive h') (hrole : h.role = h'.role)
    (hledger : h.ledger = h'.ledger) (events : List Event) :
    (h.run events).1 = (h'.run events).1 := by
  induction events generalizing h h' with
  | nil => rfl
  | cons event events ih =>
    cases event with
    | datagram now source payload =>
      obtain ⟨stats, hle, hanswer⟩ := hh.answer_eq now payload source
      obtain ⟨stats', hle', hanswer'⟩ := hh'.answer_eq now payload source
      have hhandle := handle_congr hrole hledger now payload source
      have hreceipt : h.receipt now payload source = h'.receipt now payload source := by
        unfold receipt
        rw [hanswer, hanswer', hh.drops_eq_false, hh'.drops_eq_false, hledger, hhandle]
      have hlater : ((h.answer now payload source).2.run events).1
          = ((h'.answer now payload source).2.run events).1 := by
        rw [hanswer, hanswer']
        exact ih ⟨Nat.le_trans hh.dropped hle, hh.loses⟩ ⟨Nat.le_trans hh'.dropped hle', hh'.loses⟩
          hrole (congrArg (·.2.2) hhandle)
      exact congrArg₂ (fun x xs => [x] ++ xs) hreceipt hlater
    | purge now =>
      refine ih ⟨hh.dropped, hh.loses⟩ ⟨hh'.dropped, hh'.loses⟩ hrole ?_
      exact congrArg (fun l => (l.purge now).2) hledger

/-- The books of a host that loses nothing by chance are in order after any run, purges and all: it has
received what came in and dropped the first of it, and each datagram raises one counter besides the
first, which is not that of the dropped or of the rejected if there is a reply. While it drops, its
ledger is as it was; from then on it does what a host does that was set to drop nothing and has
heard nothing. -/
theorem books_in_order (role : Role) (settings : Settings) (supply : Token.Supply)
    (hloses : ∀ n, settings.loses n = false) (events : List Event) :
    let start := Host.new role settings supply
    let h := (start.run events).2
    let n := arrivals events
    h.stats.received = n ∧ h.stats.dropped = min n settings.dropFirst ∧
      h.stats.received = h.stats.dropped + h.stats.token + h.stats.count + h.stats.list +
        h.stats.info + h.stats.rejected ∧
      (∀ now datagram a, ∃ v,
        (∀ w, (h.answer now datagram a).2.stats.counter w
          = h.stats.counter w + if v = w then 1 else 0) ∧
        (v = .dropped ∨ v = .rejected → (h.answer now datagram a).1 = [])) ∧
      (n ≤ settings.dropFirst → h.ledger = start.ledger) ∧
      (n = settings.dropFirst → ∀ later, (h.run later).1
        = ((Host.new role { settings with dropFirst := 0 } supply).run later).1) := by
  intro start h n
  have hh : Accounted role settings supply n h := by
    have hrun := (Accounted.new role settings supply).run hloses events
    rwa [Nat.zero_add] at hrun
  refine ⟨hh.received, hh.dropped, hh.received.trans hh.settled.symm, ?_, hh.idle, ?_⟩
  · intro now datagram a
    obtain ⟨v, hstats, -, hsilent⟩ := h.exists_verdict now datagram a
    refine ⟨v, fun w => ?_, hsilent⟩
    rw [hstats, Stats.counter_note]
  · intro hn later
    have hreceptive : Receptive h := by
      refine ⟨?_, ?_⟩
      · rw [hh.configured, hh.received, hn]
      · rw [hh.configured]
        exact hloses
    exact hreceptive.run_congr ⟨Nat.zero_le _, hloses⟩ hh.plays (hh.idle (Nat.le_of_eq hn)) later

def overture : List Event :=
  [.datagram 3 (.v4 ⟨10, 0, 0, 1⟩ 40000) (Token.requested 1).requestFrame, .purge 9,
    .datagram 2 (.v4 ⟨10, 0, 0, 2⟩ 40000) [0xff]]

theorem books_in_order_overture :
    let fresh := Host.new (.master []) { maxTokens := 1 } fun n => Int32.ofNat (n + 7)
    let h := ((Host.new (.master []) { maxTokens := 1, dropFirst := 2 } fun n =>
      Int32.ofNat (n + 7)).run overture).2
    (∀ n, h.settings.loses n = false) ∧ arrivals overture = 2 ∧
      h.stats.received = 2 ∧ h.stats.dropped = 2 ∧ h.ledger = fresh.ledger ∧
      (∀ later, (h.run later).1 = (fresh.run later).1) ∧
      (h.answer 11 [0x21] (.v4 ⟨10, 0, 0, 2⟩ 40000)).2.stats.rejected = 1 ∧
      (h.answer 11 [0x21] (.v4 ⟨10, 0, 0, 2⟩ 40000)).1 = [] := by
  intro fresh h
  have hloses : ∀ n, ({ maxTokens := 1, dropFirst := 2 } : Settings).loses n = false := fun _ => rfl
  obtain ⟨hreceived, hdropped, -, hverdict, hledger, hlater⟩ :=
    books_in_order (.master []) { maxTokens := 1, dropFirst := 2 } (fun n => Int32.ofNat (n + 7))
      hloses overture
  have hn : arrivals overture = 2 := rfl
  have hrejected : (h.answer 11 [0x21] (.v4 ⟨10, 0, 0, 2⟩ 40000)).2.stats.counter .rejected = 1 := by
    decide +kernel
  refine ⟨fun _ => rfl, hn, hreceived, hdropped, hledger (by decide), hlater rfl, hrejected, ?_⟩
  obtain ⟨v, hraised, hsilent⟩ := hverdict 11 [0x21] (.v4 ⟨10, 0, 0, 2⟩ 40000)
  have hnone : h.stats.counter .rejected = 0 := by decide +kernel
  have hv := hraised .rejected
  rw [hrejected, hnone, Nat.zero_add] at hv
  exact hsilent (.inr (of_not_not fun hne => by rw [if_neg hne] at hv; cases hv))

end ServerDiscovery.Host
