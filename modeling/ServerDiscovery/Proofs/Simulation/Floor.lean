import Mathlib.Data.List.Perm.Basic
import ServerDiscovery.Proofs.Simulation.Lawful
import ServerDiscovery.Proofs.Survey.Interleaving
import ServerDiscovery.Simulation.Floor

/-! The workers of a simulated network are a crew at work. Whenever they have run until each of them
waits, what they share is what it is in some interleaving of their steps, and who waits is in the
midst of a query. -/

namespace ServerDiscovery.Simulation

open Client Survey Dialogue

section Progress

variable {α : Type}

def Progress.rest : Progress α → Dialogue α
  | finished a _ => .finish a
  | waiting _ next => next

def Progress.socket : Progress α → Socket
  | finished _ socket | waiting socket _ => socket

theorem resumes_receive (next : Reception → Dialogue α) (k : Socket) :
    (Dialogue.receive next).Resumes (moment k) (next k.receive.1) (moment k.receive.2) := by
  refine ⟨[.received k.receive.2.now k.receive.1], fun os r m'' hc => ?_⟩
  exact .receive _ _ (LawfulTransport.le_now_receive k) (LawfulTransport.now_receive_le k)
    (LawfulTransport.now_receive_timedOut k) hc

theorem resumes_proceed {d : Dialogue α} {k : Socket} {p : Progress α}
    (h : proceed d k = some p) : d.Resumes (moment k) p.rest (moment p.socket) := by
  induction d generalizing k with
  | finish a =>
    cases h
    exact .refl _ _
  | stall => cases h
  | clock next ih =>
    have hstep : (Dialogue.clock next).Resumes (moment k) (next k.now) (moment k) :=
      ⟨[], fun _ _ _ hc => .clock hc⟩
    exact hstep.trans (ih _ h)
  | readUntil deadline next ih =>
    have hstep : (Dialogue.readUntil deadline next).Resumes (moment k) next
        (moment (Transport.readUntil deadline k)) := ⟨[], fun _ _ _ hc => .readUntil hc⟩
    exact hstep.trans (ih h)
  | writeUntil deadline next ih =>
    have hstep : (Dialogue.writeUntil deadline next).Resumes (moment k) next
        (moment (Transport.writeUntil deadline k)) := ⟨[], fun _ _ _ hc => .writeUntil hc⟩
    exact hstep.trans (ih h)
  | send target datagram copies next ih =>
    have hmoment : moment (k.send target datagram copies) = moment k := by
      obtain ⟨hnow, hdeadline⟩ := k.send_eq target datagram copies
      exact congrArg₂ Moment.mk hnow hdeadline
    have hstep : (Dialogue.send target datagram copies next).Resumes (moment k) next
        (moment (k.send target datagram copies)) := by
      rw [hmoment]
      exact ⟨[_], fun _ _ _ hc => .send hc⟩
    exact hstep.trans (ih h)
  | receive next ih =>
    have hstep := resumes_receive next k
    unfold proceed at h
    dsimp only at h
    split_ifs at h
    · exact hstep.trans (ih _ h)
    · cases h
      exact hstep

end Progress

variable {ι ρ : Type} {query : ι → Query ρ} {Fit : Session → Moment → Prop} {queue : List ι}
  {owns : List (Option (List ι))} {up : List (Member ι ρ)} {m m' : Member ι ρ} {job : ι}
  {f f' : Floor ι ρ}

/-- What fits a session between two queries holds of new ones, and again after each query. -/
structure Lasting (query : ι → Query ρ) (settings : Client.Settings)
    (Fit : Session → Moment → Prop) : Prop where
  new (supply : Token.Supply) (m : Moment) : Fit (.new settings supply) m
  query {job : ι} {s s' : Session} {m m' : Moment} {os : List Occurrence} {r : Except Failure ρ} :
    Fit s m → Course ((query job).dialogue s) m os (some (r, s')) m' → Fit s' m'

def MayEnd (query : ι → Query ρ) (Fit : Session → Moment → Prop) (job : ι)
    (r : Except Failure ρ) : Prop :=
  ∃ s m os s' m', Fit s m ∧ Course ((query job).dialogue s) m os (some (r, s')) m'

/-- A dialogue goes on with a query that began in a session that fits. -/
def Midst (query : ι → Query ρ) (Fit : Session → Moment → Prop) (job : ι)
    (d : Dialogue (Except Failure ρ × Session)) (m : Moment) : Prop :=
  ∃ s m₀, Fit s m₀ ∧ ((query job).dialogue s).Resumes m₀ d m

/-- Apart from the workers that are up, all wait or have gone, as in some interleaving. -/
def Staffed (query : ι → Query ρ) (Fit : Session → Moment → Prop) (queue : List ι)
    (owns : List (Option (List ι))) (up : List (Member ι ρ)) (f : Floor ι ρ) : Prop :=
  ∃ (waiting : List (ι × Sleeper ι ρ)) (gone members : List (Member ι ρ))
    (log : List (Survey.Event ι ρ)),
    waiting.map Prod.snd = f.asleep ∧
    (∀ p ∈ waiting, Midst query Fit p.1 p.2.next ⟨p.2.wakes, p.2.worker.deadline⟩) ∧
    (∀ m ∈ gone, m.stage = .gone) ∧
    members.Perm (up ++ (waiting.map (fun p => ⟨p.2.worker.own, .asking p.1⟩) ++ gone)) ∧
    Interleaving (MayEnd query Fit) queue owns log members f.crew

theorem Midst.begin {s : Session} {m : Moment} (hfit : Fit s m) (job : ι) :
    Midst query Fit job ((query job).dialogue s) m :=
  ⟨s, m, hfit, .refl _ _⟩

theorem Midst.trans {d d' : Dialogue (Except Failure ρ × Session)} {m m' : Moment}
    (hmidst : Midst query Fit job d m) (h : d.Resumes m d' m') : Midst query Fit job d' m' := by
  obtain ⟨s, m₀, hfit, hresumes⟩ := hmidst
  exact ⟨s, m₀, hfit, hresumes.trans h⟩

theorem Midst.ends {r : Except Failure ρ} {s' : Session} {m : Moment} {settings : Client.Settings}
    (hlasting : Lasting query settings Fit) (hmidst : Midst query Fit job (.finish (r, s')) m) :
    MayEnd query Fit job r ∧ Fit s' m := by
  obtain ⟨s, m₀, hfit, hresumes⟩ := hmidst
  obtain ⟨os, hcourse⟩ := hresumes.course
  exact ⟨⟨s, m₀, os, s', m, hfit, hcourse⟩, hlasting.query hfit hcourse⟩

theorem nextJob_eq (f : Floor ι ρ) (w : Worker ι) :
    f.nextJob w = (f.crew.next? w.own).map fun p =>
      (p.1, { w with own := p.2.1 }, { f with crew := p.2.2 }) := by
  obtain ⟨own, session, inbox, deadline⟩ := w
  unfold Floor.nextJob Crew.next?
  rcases own with _ | _ | ⟨job, own⟩
  · rw [Option.map_map]
    rfl
  · rfl
  · rfl

namespace Staffed

theorem step {e : Survey.Event ι ρ} {crew : Crew ι ρ}
    (hstaffed : Staffed query Fit queue owns (m :: up) f)
    (hs : Step (MayEnd query Fit) m f.crew e m' crew) :
    Staffed query Fit queue owns (m' :: up) { f with crew } := by
  obtain ⟨waiting, gone, members, log, hasleep, hmidst, hgone, hperm, hinterleaving⟩ := hstaffed
  obtain ⟨members', hnext, hperm'⟩ := hinterleaving.step_of_perm hperm hs
  exact ⟨waiting, gone, members', log ++ [e], hasleep, hmidst, hgone, hperm', hnext⟩

theorem goes (hstaffed : Staffed query Fit queue owns (m :: up) f) (hm : m.stage = .gone) :
    Staffed query Fit queue owns up f := by
  obtain ⟨waiting, gone, members, log, hasleep, hmidst, hgone, hperm, hinterleaving⟩ := hstaffed
  refine ⟨waiting, m :: gone, members, log, hasleep, hmidst, List.forall_mem_cons.mpr ⟨hm, hgone⟩,
    hperm.trans ?_, hinterleaving⟩
  have hmiddle : (m :: (up ++ waiting.map (fun p => ⟨p.2.worker.own, .asking p.1⟩) ++ gone)).Perm
      (up ++ waiting.map (fun p => ⟨p.2.worker.own, .asking p.1⟩) ++ m :: gone) :=
    List.perm_middle.symm
  simpa only [List.cons_append, List.append_assoc] using hmiddle

theorem sleeps {s : Sleeper ι ρ}
    (hstaffed : Staffed query Fit queue owns (⟨s.worker.own, .asking job⟩ :: up) f)
    (hs : Midst query Fit job s.next ⟨s.wakes, s.worker.deadline⟩) :
    Staffed query Fit queue owns up (f.sleep s) := by
  obtain ⟨waiting, gone, members, log, hasleep, hmidst, hgone, hperm, hinterleaving⟩ := hstaffed
  let n := (f.asleep.takeWhile (·.wakes ≤ s.wakes)).length
  have hsplit :
      (waiting.take n ++ (job, s) :: waiting.drop n).map Prod.snd = (f.sleep s).asleep := by
    have hrow : f.asleep.takeWhile (·.wakes ≤ s.wakes) ++ f.asleep.dropWhile (·.wakes ≤ s.wakes)
        = f.asleep := List.takeWhile_append_dropWhile
    have htake : (waiting.take n).map Prod.snd = f.asleep.takeWhile (·.wakes ≤ s.wakes) := by
      rw [List.map_take, hasleep]
      exact (congrArg (List.take n) hrow.symm).trans List.take_left
    have hdrop : (waiting.drop n).map Prod.snd = f.asleep.dropWhile (·.wakes ≤ s.wakes) := by
      rw [List.map_drop, hasleep]
      exact (congrArg (List.drop n) hrow.symm).trans List.drop_left
    rw [List.map_append, List.map_cons, htake, hdrop]
    rfl
  have hjobs : (waiting.take n ++ (job, s) :: waiting.drop n).Perm ((job, s) :: waiting) := by
    apply List.perm_middle.trans
    rw [List.take_append_drop]
  refine ⟨_, gone, members, log, hsplit, ?_, hgone, hperm.trans ?_, hinterleaving⟩
  · intro p hp
    rcases List.mem_cons.mp (hjobs.subset hp) with rfl | hp
    · exact hs
    · exact hmidst p hp
  · have hasking :=
      (hjobs.map fun p => (⟨p.2.worker.own, .asking p.1⟩ : Member ι ρ)).append_right gone
    exact (List.perm_middle.symm.trans (hasking.symm.append_left up))

theorem wakes {s : Sleeper ι ρ} {asleep : List (Sleeper ι ρ)}
    (hstaffed : Staffed query Fit queue owns up f) (hasleep : f.asleep = s :: asleep) :
    ∃ job, Midst query Fit job s.next ⟨s.wakes, s.worker.deadline⟩ ∧
      Staffed query Fit queue owns (⟨s.worker.own, .asking job⟩ :: up) { f with asleep } := by
  obtain ⟨waiting, gone, members, log, hwaiting, hmidst, hgone, hperm, hinterleaving⟩ := hstaffed
  rw [hasleep] at hwaiting
  obtain ⟨⟨job, s⟩, waiting, rfl, rfl, hrest⟩ := List.map_eq_cons_iff.mp hwaiting
  obtain ⟨hfirst, hothers⟩ := List.forall_mem_cons.mp hmidst
  exact ⟨job, hfirst, waiting, gone, members, log, hrest, hothers, hgone,
    hperm.trans List.perm_middle, hinterleaving⟩

variable {settings : Client.Settings} {w : Worker ι}

theorem leaves (hstaffed : Staffed query Fit queue owns (⟨w.own, .idle⟩ :: up) f)
    (hnext : f.nextJob w = none) : Staffed query Fit queue owns up (f.close (.ok ())) := by
  rw [nextJob_eq, Option.map_eq_none_iff] at hnext
  exact (hstaffed.step (.leaves hnext)).goes rfl

theorem takes {w' : Worker ι} (hstaffed : Staffed query Fit queue owns (⟨w.own, .idle⟩ :: up) f)
    (hnext : f.nextJob w = some (job, w', f')) :
    w'.session = w.session ∧ w'.deadline = w.deadline ∧ f'.world = f.world ∧
      Staffed query Fit queue owns (⟨w'.own, .asking job⟩ :: up) f' := by
  rw [nextJob_eq] at hnext
  obtain ⟨⟨job', own, crew⟩, hcrew, heq⟩ := Option.map_eq_some_iff.mp hnext
  cases heq
  exact ⟨rfl, rfl, rfl, hstaffed.step (.takes hcrew)⟩

theorem carryOn {n : Nat} {d : Dialogue (Except Failure ρ × Session)}
    (hlasting : Lasting query settings Fit)
    (hmidst : Midst query Fit job d ⟨f.world.now, w.deadline⟩)
    (hstaffed : Staffed query Fit queue owns (⟨w.own, .asking job⟩ :: up) f)
    (h : Floor.carryOn (fun job s => (query job).dialogue s) n w d f = some f') :
    Staffed query Fit queue owns up f' := by
  -- The bound goes down with each query that is finished; in between nobody else moves.
  induction n generalizing job w d f with
  | zero => cases h
  | succ n ih =>
    rw [Floor.carryOn] at h
    obtain ⟨p, hp, h⟩ := Option.bind_eq_some_iff.mp h
    have hrest := hmidst.trans (resumes_proceed hp)
    cases p with
    | waiting k next =>
      cases h
      exact hstaffed.sleeps hrest
    | finished x k =>
      obtain ⟨r, s'⟩ := x
      obtain ⟨hend, hfit⟩ := hrest.ends hlasting
      have htold := hstaffed.step (.ends w.own f.crew hend)
      dsimp only at h
      cases hreport : f.crew.report r with
      | error failure =>
        rw [hreport] at h
        cases h
        exact (htold.step (.fails w.own job hreport)).goes rfl
      | ok crew =>
        rw [hreport] at h
        let w₁ := { w with session := s', inbox := k.inbox, deadline := k.deadline }
        let f₁ := { f with world := k.world, crew }
        have hidle : Staffed query Fit queue owns (⟨w₁.own, .idle⟩ :: up) f₁ :=
          htold.step (.reports w.own job hreport)
        dsimp only at h
        cases hnext : f₁.nextJob w₁ with
        | none =>
          rw [hnext] at h
          cases h
          exact hidle.leaves hnext
        | some next =>
          obtain ⟨job', w₂, f₂⟩ := next
          obtain ⟨hsession, hdeadline, hworld, hasking⟩ := hidle.takes hnext
          rw [hnext] at h
          refine ih ?_ hasking h
          rw [hsession, hdeadline, hworld]
          exact .begin hfit job'

theorem hire {own : Option (List ι)} (hlasting : Lasting query settings Fit)
    (hstaffed : Staffed query Fit queue owns (⟨own, .hired⟩ :: up) f)
    (h : f.hire (fun job s => (query job).dialogue s) settings own = some f') :
    Staffed query Fit queue owns up f' := by
  unfold Floor.hire at h
  dsimp only at h
  split_ifs at h
  · cases h
    exact (hstaffed.step (.refused own _ _)).goes rfl
  · let f₁ := { f with opened := f.opened + 1 }
    let w : Worker ι := ⟨own, Session.new settings (f.supplies f.opened), .empty, 0⟩
    have hidle : Staffed query Fit queue owns (⟨w.own, .idle⟩ :: up) f₁ :=
      hstaffed.step (.opens own f.crew)
    cases hnext : f₁.nextJob w with
    | none =>
      rw [hnext] at h
      cases h
      exact hidle.leaves hnext
    | some next =>
      obtain ⟨job, w₂, f₂⟩ := next
      obtain ⟨hsession, hdeadline, hworld, hasking⟩ := hidle.takes hnext
      rw [hnext] at h
      refine hasking.carryOn hlasting ?_ h
      rw [hsession, hdeadline, hworld]
      exact .begin (hlasting.new _ _) job

theorem hire_all {workers : List (Option (List ι))} (hlasting : Lasting query settings Fit)
    (hstaffed : Staffed query Fit queue owns (workers.map (fun own => ⟨own, .hired⟩) ++ up) f)
    (h : workers.foldlM (fun f own => f.hire (fun job s => (query job).dialogue s) settings own) f
      = some f') : Staffed query Fit queue owns up f' := by
  induction workers generalizing f with
  | nil =>
    cases h
    exact hstaffed
  | cons own workers ih =>
    rw [List.foldlM_cons] at h
    obtain ⟨f₁, hfirst, h⟩ := Option.bind_eq_some_iff.mp h
    exact ih (hstaffed.hire hlasting hfirst) h

theorem settle {n : Nat} (hlasting : Lasting query settings Fit)
    (hstaffed : Staffed query Fit queue owns [] f)
    (h : f.settle (fun job s => (query job).dialogue s) false n = some f') :
    Staffed query Fit queue owns [] f' ∧ f'.asleep = [] := by
  induction n generalizing f with
  | zero => cases h
  | succ n ih =>
    rw [Floor.settle] at h
    split at h
    · rename_i hasleep
      cases h
      exact ⟨hstaffed, hasleep⟩
    · rename_i s asleep hasleep
      rw [if_neg (by simp)] at h
      obtain ⟨f₁, hnext, h⟩ := Option.bind_eq_some_iff.mp h
      obtain ⟨job, hmidst, hasking⟩ := hstaffed.wakes hasleep
      -- Only the clock has moved on, to the moment up to which the sleeper had to wait.
      let awake := { f with asleep, world := { f.world with now := s.wakes } }
      have hawake : Staffed query Fit queue owns [⟨s.worker.own, .asking job⟩] awake := hasking
      exact ih (hawake.carryOn hlasting hmidst hnext) h

end Staffed
end ServerDiscovery.Simulation
