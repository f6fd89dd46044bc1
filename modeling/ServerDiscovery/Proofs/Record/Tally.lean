import ServerDiscovery.Proofs.Record.Extent

/-! How much a client count can ask for. The reader of records is given a tally of the players that
it sets out to read, and is otherwise the same; since no player is read off fewer than five bytes,
the bytes bound the tally, whatever count they state. -/

namespace ServerDiscovery

namespace Wire

/-- A reader with a tally, which a failure does not take back. -/
abbrev Tallied := StateT Bytes (ExceptT Fault (StateM Nat))

namespace Tallied

variable {α β : Type} {bs rest : Bytes} {tally tally' : Nat} {m : Tallied α} {f : α → Tallied β}
  {r : Reader α} {g : α → Reader β} {a : α} {fault : Fault}

def run (m : Tallied α) (bs : Bytes) (tally : Nat) : Except Fault (α × Bytes) × Nat :=
  ((StateT.run m bs).run.run tally).run

def free (r : Reader α) : Tallied α := fun bs =>
  ExceptT.mk fun tally => pure (r bs, tally)

/-- What is tallied once it is set out to be read. -/
def charged (r : Reader α) : Tallied α := fun bs =>
  ExceptT.mk fun tally => pure (r bs, tally + 1)

theorem run_bind (m : Tallied α) (f : α → Tallied β) (bs : Bytes) (tally : Nat) :
    (m >>= f).run bs tally = match m.run bs tally with
      | (.ok (a, rest), tally') => (f a).run rest tally'
      | (.error fault, tally') => (.error fault, tally') := by
  unfold run StateT.run ExceptT.run Id.run
  simp only [bind, StateT.bind, ExceptT.bind, ExceptT.mk]
  cases m bs tally with
  | mk result tally' => cases result <;> rfl

theorem run_charged (r : Reader α) (bs : Bytes) (tally : Nat) :
    (charged r).run bs tally = (r bs, tally + 1) := rfl

theorem run_free (r : Reader α) (bs : Bytes) (tally : Nat) :
    (free r).run bs tally = (r bs, tally) := rfl

theorem tally_bind_pure (m : Tallied α) (h : α → β) (bs : Bytes) (tally : Nat) :
    ((m >>= fun a => pure (h a)).run bs tally).2 = (m.run bs tally).2 := by
  rw [run_bind]
  cases m.run bs tally with
  | mk result tally' => cases result <;> rfl

/-- But for its tally it is the reader. -/
def Erases (m : Tallied α) (r : Reader α) : Prop := ∀ bs tally, (m.run bs tally).1 = r bs

theorem erases_free (r : Reader α) : Erases (free r) r := fun _ _ => rfl

theorem erases_charged (r : Reader α) : Erases (charged r) r := fun _ _ => rfl

theorem erases_pure (a : α) : Erases (pure a : Tallied α) (pure a) := fun _ _ => rfl

theorem erases_throw (fault : Fault) : Erases (throw fault : Tallied α) (throw fault) :=
  fun _ _ => rfl

theorem Erases.bind (hm : Erases m r) (hf : ∀ a, Erases (f a) (g a)) :
    Erases (m >>= f) (r >>= g) := by
  intro bs tally
  have hr := hm bs tally
  rw [run_bind]
  cases hrun : m.run bs tally with
  | mk result tally' =>
    rw [hrun] at hr
    cases result with
    | error fault => exact (Reading.bind_of_error hr.symm g).symm
    | ok p => exact (hf p.1 p.2 tally').trans (Reading.bind_of_ok hr.symm g).symm

end Tallied
end Wire

namespace ServerRecord

open Wire

variable {r head : ServerRecord} {bs rest : Bytes} {address : String} {m n : Nat}

def tallyPlayers : Nat → Tallied (List PlayerRecord)
  | 0 => pure []
  | n + 1 => do
    let p ← Tallied.charged PlayerRecord.read
    let ps ← tallyPlayers n
    return p :: ps

/-- A record, with a tally of the players that are set out to be read. -/
def tally (address : String) : Tallied ServerRecord := do
  let head ← Tallied.free (readHead address)
  if head.numClients < 0 then throw (.malformed .negativePlayerCount)
  let players ← tallyPlayers head.numClients.toInt.toNat
  return { head with players }

theorem erases_tallyPlayers (n : Nat) : Tallied.Erases (tallyPlayers n) (readPlayers n) := by
  induction n with
  | zero => exact Tallied.erases_pure []
  | succ n ih =>
    exact (Tallied.erases_charged PlayerRecord.read).bind fun p =>
      ih.bind fun ps => Tallied.erases_pure (p :: ps)

theorem erases_tally (address : String) : Tallied.Erases (tally address) (read address) := by
  refine (Tallied.erases_free (readHead address)).bind fun head => ?_
  dsimp only
  split_ifs
  · exact Tallied.erases_throw _
  · exact (erases_tallyPlayers _).bind fun players => Tallied.erases_pure { head with players }

/-- So many players stand at the front of the bytes, one behind the other. -/
inductive Lined : Nat → Bytes → Prop
  | nil (bs : Bytes) : Lined 0 bs
  | cons {n : Nat} {bs rest : Bytes} {p : PlayerRecord}
      (hread : PlayerRecord.read bs = .ok (p, rest)) (hrest : Lined n rest) : Lined (n + 1) bs

theorem Lined.of_succ (h : Lined (n + 1) bs) :
    ∃ p rest, PlayerRecord.read bs = .ok (p, rest) ∧ Lined n rest := by
  cases h with
  | cons hread hrest => exact ⟨_, _, hread, hrest⟩

theorem Lined.mono (h : Lined n bs) (hle : m ≤ n) : Lined m bs := by
  induction h generalizing m with
  | nil bs =>
    obtain rfl := Nat.le_zero.mp hle
    exact .nil bs
  | cons hread _ ih =>
    cases m with
    | zero => exact .nil _
    | succ m => exact .cons hread (ih (Nat.le_of_succ_le_succ hle))

theorem Lined.length_le (h : Lined n bs) : 5 * n ≤ bs.length := by
  induction h with
  | nil bs => exact Nat.zero_le _
  | cons hread _ ih =>
    have hlength := PlayerRecord.delimits_read.length_le hread
    omega

theorem exists_lined_of_not (h : ¬ Lined n bs) : ∃ m < n, Lined m bs ∧ ¬ Lined (m + 1) bs := by
  induction n with
  | zero => exact absurd (.nil bs) h
  | succ n ih =>
    by_cases hn : Lined n bs
    · exact ⟨n, Nat.lt_succ_self n, hn, h⟩
    · obtain ⟨m, hlt, hm⟩ := ih hn
      exact ⟨m, Nat.lt_succ_of_lt hlt, hm⟩

theorem exists_readPlayers_iff :
    (∃ ps left, readPlayers n bs = .ok (ps, left)) ↔ Lined n bs := by
  constructor
  · rintro ⟨ps, left, h⟩
    induction n generalizing bs ps left with
    | zero => exact .nil bs
    | succ n ih =>
      obtain ⟨p, rest, hread, hrest⟩ := Reading.bind_eq_ok_iff.mp h
      obtain ⟨ps, left', hplayers, -⟩ := Reading.bind_eq_ok_iff.mp hrest
      exact .cons hread (ih ps left' hplayers)
  · intro h
    induction h with
    | nil bs => exact ⟨[], bs, rfl⟩
    | @cons n bs rest p hread hrest ih =>
      obtain ⟨ps, left, hplayers⟩ := ih
      refine ⟨p :: ps, left, ?_⟩
      rw [readPlayers, Reading.bind_of_ok hread, Reading.bind_of_ok hplayers]
      rfl

theorem exists_parse_iff : (∃ r, parse bs address = .ok r) ↔
    ∃ head rest, readHead address bs = .ok (head, rest) ∧ 0 ≤ head.numClients.toInt ∧
      Lined head.numClients.toInt.toNat rest := by
  constructor
  · rintro ⟨r, h⟩
    obtain ⟨left, hread⟩ := parse_eq_ok_iff.mp h
    obtain ⟨head, rest, players, hhead, hcount, hplayers, -⟩ := read_eq_ok_iff.mp hread
    exact ⟨head, rest, hhead, hcount, exists_readPlayers_iff.mp ⟨players, left, hplayers⟩⟩
  · rintro ⟨head, rest, hhead, hcount, hlined⟩
    obtain ⟨players, left, hplayers⟩ := exists_readPlayers_iff.mpr hlined
    exact ⟨_, parse_eq_ok_iff.mpr ⟨left,
      read_eq_ok_iff.mpr ⟨head, rest, players, hhead, hcount, hplayers, rfl⟩⟩⟩

theorem length_of_parse (h : parse bs address = .ok r) :
    11 + 5 * r.players.length ≤ bs.length := by
  obtain ⟨left, hread⟩ := parse_eq_ok_iff.mp h
  obtain ⟨head, rest, players, hhead, hcount, hplayers, rfl⟩ := read_eq_ok_iff.mp hread
  have hheadLength := (delimits_readHead address).length_le hhead
  have hplayersLength := (delimits_readPlayers _).length_le hplayers
  rw [← (yields_readPlayers _ _ _ _ hplayers).1] at hplayersLength
  dsimp only
  omega

theorem tallyPlayers_succ {p : PlayerRecord} (hread : PlayerRecord.read bs = .ok (p, rest))
    (n k : Nat) : ((tallyPlayers (n + 1)).run bs k).2 = ((tallyPlayers n).run rest (k + 1)).2 := by
  rw [tallyPlayers, Tallied.run_bind, Tallied.run_charged, hread]
  exact Tallied.tally_bind_pure _ _ _ _

theorem tallyPlayers_of_lined (h : Lined n bs) (k : Nat) :
    ((tallyPlayers n).run bs k).2 = k + n := by
  induction h generalizing k with
  | nil bs => rfl
  | @cons n _ _ _ hread _ ih => rw [tallyPlayers_succ hread, ih, Nat.add_right_comm, Nat.add_assoc]

theorem tallyPlayers_of_short (h : Lined m bs) (hnext : ¬ Lined (m + 1) bs) (hlt : m < n)
    (k : Nat) : ((tallyPlayers n).run bs k).2 = k + m + 1 := by
  obtain ⟨n, rfl⟩ := Nat.exists_eq_succ_of_ne_zero (Nat.ne_zero_of_lt hlt)
  induction h generalizing n k with
  | nil bs =>
    rw [tallyPlayers, Tallied.run_bind, Tallied.run_charged]
    cases hread : PlayerRecord.read bs with
    | error fault => rfl
    | ok p => exact absurd (.cons hread (.nil p.2)) hnext
  | @cons m _ rest _ hread _ ih =>
    have hshort : ¬ Lined (m + 1) rest := fun h => hnext (.cons hread h)
    have hlt' : m < n := Nat.lt_of_succ_lt_succ hlt
    obtain ⟨n, rfl⟩ := Nat.exists_eq_succ_of_ne_zero (Nat.ne_zero_of_lt hlt')
    rw [tallyPlayers_succ hread, ih hshort (k + 1) n hlt']
    omega

theorem tally_of_no_head {fault : Fault} (hhead : readHead address bs = .error fault) :
    ((tally address).run bs 0).2 = 0 := by
  rw [tally, Tallied.run_bind, Tallied.run_free, hhead]

/-- A record that states fewer players than none is tallied at none, one whose players are all there
at their number, and any other at the players that are there and the first that is not. -/
theorem tally_of_head (hhead : readHead address bs = .ok (head, rest)) :
    (head.numClients < 0 → ((tally address).run bs 0).2 = 0) ∧
      ∀ n : Nat, head.numClients.toInt = n →
        (Lined n rest → ((tally address).run bs 0).2 = n) ∧
        ∀ m < n, Lined m rest → ¬ Lined (m + 1) rest → ((tally address).run bs 0).2 = m + 1 := by
  rw [tally, Tallied.run_bind, Tallied.run_free, hhead]
  dsimp only
  refine ⟨fun hneg => by rw [if_pos hneg]; rfl, fun n hn => ?_⟩
  have hcount : ¬ head.numClients < 0 := by
    rw [Int32.lt_iff_toInt_lt, Int32.toInt_zero]
    omega
  rw [if_neg hcount, Tallied.tally_bind_pure, hn, Int.toNat_natCast]
  constructor
  · intro hlined
    rw [tallyPlayers_of_lined hlined, Nat.zero_add]
  · intro m hlt hlined hnext
    rw [tallyPlayers_of_short hlined hnext hlt, Nat.zero_add]

theorem tally_le (bs : Bytes) (address : String) :
    ((tally address).run bs 0).2 ≤ bs.length / 5 + 1 := by
  cases hhead : readHead address bs with
  | error fault => rw [tally_of_no_head hhead]; exact Nat.zero_le _
  | ok p =>
    obtain ⟨head, rest⟩ := p
    obtain ⟨hneg, htally⟩ := tally_of_head hhead
    have hlength := (delimits_readHead address).length_le hhead
    rcases Int.lt_or_le head.numClients.toInt 0 with hlt | hge
    · rw [hneg (Int32.lt_iff_toInt_lt.mpr hlt)]
      exact Nat.zero_le _
    · obtain ⟨n, hn⟩ := Int.eq_ofNat_of_zero_le hge
      by_cases hlined : Lined n rest
      · have hplayers := hlined.length_le
        rw [(htally n hn).1 hlined]
        omega
      · obtain ⟨m, hlt, hm, hnext⟩ := exists_lined_of_not hlined
        have hplayers := hm.length_le
        rw [(htally n hn).2 m hlt hm hnext]
        omega

/-- However many players a record states, no more of them are set out to be read than the bytes have
room for and one. A record that states fewer than none or more than there are is refused, and the
players of one that is not refused are all there. -/
theorem contained (bs : Bytes) (address : String) :
    Prod.fst <$> ((tally address).run bs 0).1 = parse bs address ∧
      ((tally address).run bs 0).2 ≤ bs.length / 5 + 1 ∧
      (∀ head rest, readHead address bs = .ok (head, rest) →
        head.numClients < 0 ∨ ¬ Lined head.numClients.toInt.toNat rest →
          ∃ fault, parse bs address = .error fault) ∧
      ∀ r, parse bs address = .ok r →
        11 + 5 * r.players.length ≤ bs.length ∧ r.players.length = r.numClients.toInt := by
  refine ⟨?_, tally_le bs address, fun head rest hhead hbad => ?_, fun r h => ?_⟩
  · rw [erases_tally address bs 0]
    rfl
  · cases hparse : parse bs address with
    | error fault => exact ⟨fault, rfl⟩
    | ok r =>
      obtain ⟨head', rest', hhead', hcount, hlined⟩ := exists_parse_iff.mp ⟨r, hparse⟩
      obtain ⟨rfl, rfl⟩ := Prod.mk.inj (Except.ok.inj (hhead.symm.trans hhead'))
      rcases hbad with hneg | hshort
      · rw [Int32.lt_iff_toInt_lt, Int32.toInt_zero] at hneg
        omega
      · exact absurd hlined hshort
  · exact ⟨length_of_parse h, (normal_of_parse h).clients.symm⟩

def lone : Bytes := [0x62, 0x00, 0x00, 0x00, 0x05, 0x00] ++ [0x63, 0x00, 0x00, 0x01]

def boast : Bytes :=
  [0x30, 0x00] ++ [0x61, 0x00] ++ [0x00] ++ [0x6d, 0x00] ++ [0x00] ++ [0, 0] ++ [1] ++ [8]
    ++ [0xbf, 0xff, 0xff, 0xff, 0x0f] ++ [8] ++ lone

theorem lined_lone : Lined 1 lone ∧ ¬ Lined 2 lone := by
  have hfirst : PlayerRecord.read lone = .ok (⟨"b", "", 0, 5, 0⟩, [0x63, 0x00, 0x00, 0x01]) :=
    eq_ok_of_toOption (by decide +kernel)
  have hsecond : (PlayerRecord.read [0x63, 0x00, 0x00, 0x01]).toOption = none := by
    decide +kernel
  refine ⟨.cons hfirst (.nil _), fun h => ?_⟩
  obtain ⟨p, rest, hread, hrest⟩ := h.of_succ
  obtain ⟨rfl, rfl⟩ := Prod.mk.inj (Except.ok.inj (hfirst.symm.trans hread))
  obtain ⟨p, rest, hread, -⟩ := hrest.of_succ
  rw [hread] at hsecond
  cases hsecond

theorem contained_boast : ∃ head rest, readHead "10.0.0.1:8303" boast = .ok (head, rest) ∧
    ¬ Lined head.numClients.toInt.toNat rest ∧
    ((tally "10.0.0.1:8303").run boast 0).2 = 2 ∧
    (∃ fault, parse boast "10.0.0.1:8303" = .error fault) ∧
    parse smudge "10.0.0.1:8303" = .ok smudged ∧
    11 + 5 * smudged.players.length ≤ smudge.length := by
  have hhead : readHead "10.0.0.1:8303" boast = .ok
      (⟨"10.0.0.1:8303", "0", "a", "", "m", "", 0, 0, 1, 8, 2147483647, 8, []⟩, lone) :=
    eq_ok_of_toOption (by decide +kernel)
  have hshort : ¬ Lined 2147483647 lone := fun h => lined_lone.2 (h.mono (by decide))
  have htally := ((tally_of_head hhead).2 2147483647 rfl).2 1 (by decide) lined_lone.1 lined_lone.2
  obtain ⟨-, -, hfails, -⟩ := contained boast "10.0.0.1:8303"
  exact ⟨_, _, hhead, hshort, htally, hfails _ _ hhead (.inr hshort), parse_smudge,
    ((contained smudge "10.0.0.1:8303").2.2.2 smudged parse_smudge).1⟩

end ServerRecord
end ServerDiscovery
