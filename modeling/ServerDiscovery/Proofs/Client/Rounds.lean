import Mathlib.Algebra.Ring.Nat
import Mathlib.Data.List.Basic
import ServerDiscovery.Client.Inquiry
import ServerDiscovery.Proofs.Client.Watch

/-! An inquiry as the rounds that it goes through. Each round sends its burst and then listens until
something ends it; a round that fails backs off into the next one. The runs of an inquiry are just
these chains of rounds, whatever patience they are given. -/

namespace ServerDiscovery.Client

open Dialogue

structure Round (σ : Type) where
  inquiry : Inquiry
  opening : σ
  heard : List (Time × Reception)

def Round.window {σ : Type} [Transport σ] (r : Round σ) : Time :=
  min r.inquiry.window (r.inquiry.left (Transport.now r.opening))

namespace Inquiry

variable {σ α : Type} [Transport σ] {x : Inquiry} {accept : Accept α} {k k' : σ}
  {heard : List (Time × Reception)} {verdict : Verdict α} {result : Except Failure α}

def launch (x : Inquiry) (k : σ) : σ :=
  Transport.send x.target x.request x.burst <|
    Transport.writeUntil (Transport.now k + x.pacing.writeBudget) <|
      Transport.readUntil (Transport.now k + min x.window (x.left (Transport.now k))) k

/-- What a round hears, up to the reception that ends it, and the verdict on that one. -/
inductive Listens (x : Inquiry) (accept : Accept α) :
    σ → List (Time × Reception) → Verdict α → σ → Prop where
  | ends {k k' : σ} {reception : Reception} {verdict : Verdict α} :
      Transport.receive k = (reception, k') →
      x.judge accept (Transport.now k') reception = verdict → verdict ≠ .ignore →
      Listens x accept k [(Transport.now k', reception)] verdict k'
  | ignores {k k₁ k' : σ} {reception : Reception} {heard : List (Time × Reception)}
      {verdict : Verdict α} :
      Transport.receive k = (reception, k₁) →
      x.judge accept (Transport.now k₁) reception = .ignore →
      Listens x accept k₁ heard verdict k' →
      Listens x accept k ((Transport.now k₁, reception) :: heard) verdict k'

/-- The rounds of an inquiry from some moment on, and what it ends in. -/
inductive Rounds (accept : Accept α) :
    Inquiry → σ → List (Round σ) → Except Failure α → σ → Prop where
  | spent {x : Inquiry} {k : σ} :
      x.left (Transport.now k) = 0 → Rounds accept x k [] (.error .timeout) k
  | settled {x : Inquiry} {k k' : σ} {heard : List (Time × Reception)}
      {result : Except Failure α} :
      x.left (Transport.now k) ≠ 0 → Listens x accept (x.launch k) heard (.settle result) k' →
      Rounds accept x k [⟨x, k, heard⟩] result k'
  | failed {x : Inquiry} {k k₁ k' : σ} {heard : List (Time × Reception)}
      {rounds : List (Round σ)} {result : Except Failure α} :
      x.left (Transport.now k) ≠ 0 → Listens x accept (x.launch k) heard .reject k₁ →
      Rounds accept (x.backOff (Transport.now k₁)) k₁ rounds result k' →
      Rounds accept x k (⟨x, k, heard⟩ :: rounds) result k'

theorem run_attempt_launch (x : Inquiry) (wait : Dialogue (Except Failure α)) (k : σ) :
    (x.attempt wait).run k =
      if x.left (Transport.now k) = 0 then some (.error .timeout, k)
      else wait.run (x.launch k) := by
  unfold attempt
  rw [Dialogue.run]
  split_ifs <;> rfl

theorem run_await (accept : Accept α) (patience : Nat) (x : Inquiry) (k : σ) :
    (await accept (patience + 1) x).run k =
      match x.judge accept (Transport.now (Transport.receive k).2) (Transport.receive k).1 with
      | .ignore => (await accept patience x).run (Transport.receive k).2
      | .reject =>
        ((x.backOff (Transport.now (Transport.receive k).2)).attempt (await accept patience
          (x.backOff (Transport.now (Transport.receive k).2)))).run (Transport.receive k).2
      | .settle result => some (result, (Transport.receive k).2) := by
  rw [await]
  simp only [Dialogue.run]
  cases x.judge accept (Transport.now (Transport.receive k).2) (Transport.receive k).1 <;> rfl

section Run

theorem Listens.run_reject (h : Listens x accept k heard .reject k') (patience : Nat) :
    (await accept (heard.length + patience) x).run k =
      ((x.backOff (Transport.now k')).attempt
        (await accept patience (x.backOff (Transport.now k')))).run k' := by
  generalize hverdict : (Verdict.reject : Verdict α) = verdict at h
  induction h with
  | ends hreceive hjudge _ =>
    rw [List.length_singleton, Nat.add_comm, run_await, hreceive]
    simp only [hjudge, ← hverdict]
  | ignores hreceive hjudge _ ih =>
    rw [List.length_cons, Nat.succ_add, run_await, hreceive]
    simpa only [hjudge] using ih hverdict

theorem Listens.run_settle (h : Listens x accept k heard (.settle result) k') (patience : Nat) :
    (await accept (heard.length + patience) x).run k = some (result, k') := by
  generalize hverdict : Verdict.settle result = verdict at h
  induction h with
  | ends hreceive hjudge _ =>
    rw [List.length_singleton, Nat.add_comm, run_await, hreceive]
    simp only [hjudge, ← hverdict]
  | ignores hreceive hjudge _ ih =>
    rw [List.length_cons, Nat.succ_add, run_await, hreceive]
    simpa only [hjudge] using ih hverdict

def receptions (rounds : List (Round σ)) : Nat := (rounds.map fun r => r.heard.length).sum

theorem Rounds.run {rounds : List (Round σ)} (h : Rounds accept x k rounds result k')
    {patience : Nat} (hpatience : receptions rounds ≤ patience) :
    (x.attempt (await accept patience x)).run k = some (result, k') := by
  induction h generalizing patience with
  | spent hleft => rw [run_attempt_launch, if_pos hleft]
  | @settled x k k' heard result hleft hlistens =>
    obtain ⟨p, rfl⟩ : ∃ p, patience = heard.length + p :=
      Nat.exists_eq_add_of_le (by simpa [receptions] using hpatience)
    rw [run_attempt_launch, if_neg hleft, hlistens.run_settle]
  | @failed x k k₁ k' heard rounds result hleft hlistens _ ih =>
    have hsum : heard.length + receptions rounds ≤ patience := by
      simpa [receptions] using hpatience
    obtain ⟨p, rfl⟩ := Nat.exists_eq_add_of_le (Nat.le_of_add_right_le hsum)
    rw [run_attempt_launch, if_neg hleft, hlistens.run_reject]
    exact ih (Nat.le_of_add_le_add_left hsum)

theorem exists_listens_of_run {patience : Nat}
    (h : (await accept patience x).run k = some (result, k')) :
    ∃ heard, Listens x accept k heard (.settle result) k' ∨
      ∃ k₁ rounds, Listens x accept k heard .reject k₁ ∧
        Rounds accept (x.backOff (Transport.now k₁)) k₁ rounds result k' := by
  induction patience generalizing x k with
  | zero => cases h
  | succ patience ih =>
    rcases hreceive : Transport.receive k with ⟨reception, k₁⟩
    rw [run_await, hreceive] at h
    cases hjudge : x.judge accept (Transport.now k₁) reception with
    | ignore =>
      simp only [hjudge] at h
      obtain ⟨heard, hsettle | ⟨k₂, rounds, hreject, hrounds⟩⟩ := ih h
      · exact ⟨_, .inl (.ignores hreceive hjudge hsettle)⟩
      · exact ⟨_, .inr ⟨k₂, rounds, .ignores hreceive hjudge hreject, hrounds⟩⟩
    | reject =>
      simp only [hjudge, run_attempt_launch] at h
      refine ⟨[(Transport.now k₁, reception)], .inr ⟨k₁, ?_⟩⟩
      have hreject : Listens x accept k [(Transport.now k₁, reception)] .reject k₁ :=
        .ends hreceive hjudge nofun
      split_ifs at h with hleft
      · cases h
        exact ⟨[], hreject, .spent hleft⟩
      · obtain ⟨heard, hsettle | ⟨k₂, rounds, hagain, hrounds⟩⟩ := ih h
        · exact ⟨_, hreject, .settled hleft hsettle⟩
        · exact ⟨_, hreject, .failed hleft hagain hrounds⟩
    | settle result' =>
      simp only [hjudge] at h
      cases h
      exact ⟨_, .inl (.ends hreceive hjudge nofun)⟩

theorem exists_rounds_of_run {patience : Nat}
    (h : (x.attempt (await accept patience x)).run k = some (result, k')) :
    ∃ rounds, Rounds accept x k rounds result k' := by
  rw [run_attempt_launch] at h
  split_ifs at h with hleft
  · cases h
    exact ⟨[], .spent hleft⟩
  · obtain ⟨heard, hsettle | ⟨k₁, rounds, hreject, hrounds⟩⟩ := exists_listens_of_run h
    · exact ⟨_, .settled hleft hsettle⟩
    · exact ⟨_, .failed hleft hreject hrounds⟩

end Run

theorem Listens.unique {heard' : List (Time × Reception)} {verdict' : Verdict α} {k'' : σ}
    (h : Listens x accept k heard verdict k') (h' : Listens x accept k heard' verdict' k'') :
    heard = heard' ∧ verdict = verdict' ∧ k' = k'' := by
  induction h generalizing heard' with
  | ends hreceive hjudge hverdict =>
    cases h' with
    | ends hreceive' hjudge' _ =>
      cases hreceive.symm.trans hreceive'
      exact ⟨rfl, hjudge.symm.trans hjudge', rfl⟩
    | ignores hreceive' hjudge' _ =>
      cases hreceive.symm.trans hreceive'
      exact absurd (hjudge.symm.trans hjudge') hverdict
  | ignores hreceive hjudge _ ih =>
    cases h' with
    | ends hreceive' hjudge' hverdict' =>
      cases hreceive.symm.trans hreceive'
      exact absurd (hjudge'.symm.trans hjudge) hverdict'
    | ignores hreceive' _ h' =>
      cases hreceive.symm.trans hreceive'
      obtain ⟨rfl, rfl, rfl⟩ := ih h'
      exact ⟨rfl, rfl, rfl⟩

theorem Listens.exists_last (h : Listens x accept k heard verdict k') :
    ∃ before reception, heard = before ++ [(Transport.now k', reception)] ∧
      (∀ p ∈ before, x.judge accept p.1 p.2 = .ignore) ∧
      x.judge accept (Transport.now k') reception = verdict := by
  induction h with
  | ends _ hjudge _ => exact ⟨[], _, rfl, nofun, hjudge⟩
  | ignores _ hjudge _ ih =>
    obtain ⟨before, reception, rfl, hbefore, hlast⟩ := ih
    exact ⟨_ :: before, reception, rfl, List.forall_mem_cons.mpr ⟨hjudge, hbefore⟩, hlast⟩

theorem Listens.ne_ignore (h : Listens x accept k heard verdict k') : verdict ≠ .ignore := by
  induction h with
  | ends _ _ hverdict => exact hverdict
  | ignores _ _ _ ih => exact ih

theorem Listens.ne_timeout (h : Listens x accept k heard (.settle result) k') :
    result ≠ .error .timeout := by
  obtain ⟨_, _, _, _, hjudge⟩ := h.exists_last
  rintro rfl
  obtain ⟨_, hfalse⟩ | ⟨_, _, _, _, _, _, hfalse⟩ := judge_settle hjudge <;> cases hfalse

theorem Rounds.exists_listens {rounds : List (Round σ)} (h : Rounds accept x k rounds result k')
    {r : Round σ} (hr : r ∈ rounds) : r.inquiry.target = x.target ∧
      ∃ verdict k₁, Listens r.inquiry accept (r.inquiry.launch r.opening) r.heard verdict k₁ := by
  induction h with
  | spent => cases hr
  | settled _ hlistens =>
    obtain rfl := List.mem_singleton.mp hr
    exact ⟨rfl, _, _, hlistens⟩
  | failed _ hlistens _ ih =>
    rcases List.mem_cons.mp hr with rfl | hr
    · exact ⟨rfl, _, _, hlistens⟩
    · exact ih hr

theorem Rounds.eq_timeout {rounds : List (Round σ)} (h : Rounds accept x k rounds result k')
    (hnone : ∀ r ∈ rounds, ∀ p ∈ r.heard, ∀ result,
      x.judge accept p.1 p.2 ≠ .settle result) : result = .error .timeout := by
  induction h with
  | spent => rfl
  | settled _ hlistens =>
    obtain ⟨before, reception, rfl, -, hjudge⟩ := hlistens.exists_last
    exact absurd hjudge (hnone _ (List.mem_singleton_self _) _
      (List.mem_append_right _ (List.mem_singleton_self _)) _)
  | failed _ _ _ ih => exact ih fun r hr => hnone r (List.mem_cons_of_mem _ hr)

section Lawful

variable [LawfulTransport σ]

theorem receive_timely {reception : Reception} (hreceive : Transport.receive k = (reception, k'))
    (hk : Transport.now k ≤ LawfulTransport.deadline k) :
    Transport.now k ≤ Transport.now k' ∧ Transport.now k' ≤ LawfulTransport.deadline k ∧
      LawfulTransport.deadline k' = LawfulTransport.deadline k ∧
      (reception = .timedOut → Transport.now k' = LawfulTransport.deadline k) := by
  have hle := LawfulTransport.le_now_receive k
  have hdeadline := LawfulTransport.now_receive_le k
  have hsame := LawfulTransport.deadline_receive k
  have htimedOut := LawfulTransport.now_receive_timedOut k
  rw [hreceive] at hle hdeadline hsame htimedOut
  rw [max_eq_right hk] at hdeadline htimedOut
  exact ⟨hle, hdeadline, hsame, htimedOut⟩

theorem Listens.timely (h : Listens x accept k heard verdict k')
    (hk : Transport.now k ≤ LawfulTransport.deadline k) :
    Transport.now k ≤ Transport.now k' ∧ Transport.now k' ≤ LawfulTransport.deadline k ∧
      ∀ p ∈ heard, Transport.now k ≤ p.1 ∧ p.1 ≤ Transport.now k' ∧
        (p.2 = .timedOut → p.1 = LawfulTransport.deadline k) := by
  induction h with
  | ends hreceive _ _ =>
    obtain ⟨hle, hdeadline, -, htimedOut⟩ := receive_timely hreceive hk
    exact ⟨hle, hdeadline, List.forall_mem_singleton.mpr ⟨hle, le_rfl, htimedOut⟩⟩
  | ignores hreceive _ _ ih =>
    obtain ⟨hle, hdeadline, hsame, htimedOut⟩ := receive_timely hreceive hk
    rw [hsame] at ih
    obtain ⟨hle', hdeadline', hheard⟩ := ih hdeadline
    refine ⟨hle.trans hle', hdeadline', List.forall_mem_cons.mpr ⟨⟨hle, hle', htimedOut⟩, ?_⟩⟩
    intro p hp
    exact ⟨hle.trans (hheard p hp).1, (hheard p hp).2⟩

theorem now_launch (x : Inquiry) (k : σ) : Transport.now (x.launch k) = Transport.now k := by
  rw [launch, LawfulTransport.now_send, LawfulTransport.now_writeUntil,
    LawfulTransport.now_readUntil]

theorem deadline_launch (x : Inquiry) (k : σ) :
    LawfulTransport.deadline (x.launch k) =
      Transport.now k + min x.window (x.left (Transport.now k)) := by
  rw [launch, LawfulTransport.deadline_send, LawfulTransport.deadline_writeUntil,
    LawfulTransport.deadline_readUntil]

end Lawful

end Inquiry

section Inquire

variable {σ α : Type} [Transport σ] {pacing : Pacing} {target : SocketAddress} {request : Bytes}
  {accept : Accept α} {k k' : σ} {result : Except Failure α}

theorem run_inquire_iff :
    (∃ patience, (inquire pacing target request accept patience).run k = some (result, k')) ↔
      ∃ rounds, Inquiry.Rounds accept (.start target request pacing (Transport.now k)) k rounds
        result k' :=
  ⟨fun ⟨_, h⟩ => Inquiry.exists_rounds_of_run h, fun ⟨_, h⟩ => ⟨_, h.run le_rfl⟩⟩

end Inquire
end ServerDiscovery.Client
