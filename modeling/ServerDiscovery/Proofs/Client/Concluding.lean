import Mathlib.Tactic.SplitIfs
import ServerDiscovery.Proofs.Client.Query
import ServerDiscovery.Proofs.Client.Rounds

/-! Patience only bounds how long a dialogue is followed. What ends with some patience ends in the
same way with more, so that an operation of a session comes to one conclusion, if to any. -/

namespace ServerDiscovery.Client

variable {σ α β : Type} [Transport σ]

namespace Dialogue

def Extends (σ : Type) [Transport σ] (d d' : Dialogue α) : Prop :=
  ∀ (k : σ) p, d.run k = some p → d'.run k = some p

theorem Extends.refl (d : Dialogue α) : Extends σ d d := fun _ _ h => h

theorem Extends.bind {d d' : Dialogue α} {f f' : α → Dialogue β} (h : Extends σ d d')
    (hf : ∀ a, Extends σ (f a) (f' a)) : Extends σ (d.bind f) (d'.bind f') := by
  intro k p hrun
  have hsplit := (run_bind d f k).symm.trans hrun
  obtain ⟨⟨a, k₁⟩, hd, hrest⟩ := Option.bind_eq_some_iff.mp hsplit
  refine (run_bind d' f' k).trans ?_
  rw [h k _ hd]
  exact hf a k₁ p hrest

/-- With patience enough, a dialogue ends like this. -/
def Concludes (d : Nat → Dialogue α) (k : σ) (a : α) (k' : σ) : Prop :=
  ∃ enough, ∀ patience ≥ enough, (d patience).run k = some (a, k')

namespace Concludes

variable {d : Nat → Dialogue α} {f : Nat → α → Dialogue β} {k k₁ k' : σ} {a a' : α} {b : β}

theorem of_run {d : Dialogue α} (h : d.run k = some (a, k')) : Concludes (fun _ => d) k a k' :=
  ⟨0, fun _ _ => h⟩

theorem of_extends
    (hd : ∀ {patience patience'}, patience ≤ patience' → Extends σ (d patience) (d patience'))
    (patience : Nat) (h : (d patience).run k = some (a, k')) : Concludes d k a k' :=
  ⟨patience, fun _ hle => hd hle k _ h⟩

theorem unique (h : Concludes d k a k₁) (h' : Concludes d k a' k') : a = a' ∧ k₁ = k' := by
  obtain ⟨enough, hrun⟩ := h
  obtain ⟨enough', hrun'⟩ := h'
  have hsame := (hrun _ (Nat.le_max_left enough enough')).symm.trans
    (hrun' _ (Nat.le_max_right enough enough'))
  cases hsame
  exact ⟨rfl, rfl⟩

theorem bind (h : Concludes d k a k₁) (h' : Concludes (fun patience => f patience a) k₁ b k') :
    Concludes (fun patience => d patience >>= f patience) k b k' := by
  obtain ⟨enough, hrun⟩ := h
  obtain ⟨enough', hrun'⟩ := h'
  refine ⟨max enough enough', fun patience hpatience => ?_⟩
  rw [run_bind, hrun patience (Nat.le_trans (Nat.le_max_left ..) hpatience)]
  exact hrun' patience (Nat.le_trans (Nat.le_max_right ..) hpatience)

end Concludes
end Dialogue

variable {patience patience' : Nat}

section Inquire

theorem Inquiry.extends_await (accept : Accept α) (hle : patience ≤ patience') (x : Inquiry) :
    Dialogue.Extends σ (await accept patience x) (await accept patience' x) := by
  intro k p h
  induction patience generalizing patience' x k with
  | zero => cases h
  | succ patience ih =>
    obtain ⟨patience', rfl⟩ := Nat.exists_eq_add_of_le' (Nat.one_le_of_lt hle)
    have hle' : patience ≤ patience' := Nat.le_of_succ_le_succ hle
    rw [run_await] at h ⊢
    cases hjudge :
        x.judge accept (Transport.now (Transport.receive k).2) (Transport.receive k).1 with
    | ignore =>
      simp only [hjudge] at h ⊢
      exact ih hle' x _ h
    | reject =>
      simp only [hjudge, run_attempt_launch] at h ⊢
      split_ifs at h ⊢
      · exact h
      · exact ih hle' _ _ h
    | settle result =>
      simp only [hjudge] at h ⊢
      exact h

variable {pacing : Pacing} {target : SocketAddress} {request : Bytes} {accept : Accept α}
  {k k' : σ} {result : Except Failure α}

theorem extends_inquire (hle : patience ≤ patience') :
    Dialogue.Extends σ (inquire pacing target request accept patience)
      (inquire pacing target request accept patience') := by
  intro k p h
  change (Inquiry.attempt _ _).run k = some p at h
  change (Inquiry.attempt _ _).run k = some p
  rw [Inquiry.run_attempt_launch] at h ⊢
  split_ifs at h ⊢
  · exact h
  · exact Inquiry.extends_await accept hle _ _ p h

theorem concludes_of_run_inquire
    (h : (inquire pacing target request accept patience).run k = some (result, k')) :
    Dialogue.Concludes (inquire pacing target request accept) k result k' :=
  .of_extends extends_inquire patience h

theorem Inquiry.Rounds.concludes {rounds : List (Round σ)}
    (h : Rounds accept (.start target request pacing (Transport.now k)) k rounds result k') :
    Dialogue.Concludes (inquire pacing target request accept) k result k' :=
  ⟨_, fun _ => h.run⟩

end Inquire

namespace Query

section Gather

variable {source : Endpoint} {expected count : Nat} {servers : List Endpoint} {k k' : σ}
  {result : Except Failure (List Endpoint)}

theorem extends_gather (hle : patience ≤ patience') :
    Dialogue.Extends σ (gather source expected patience count servers)
      (gather source expected patience' count servers) := by
  intro k p h
  induction patience generalizing patience' count servers k with
  | zero =>
    rw [gather] at h
    split_ifs at h with henough
    · rw [gather.eq_def, if_pos henough]
      exact h
    · cases h
  | succ patience ih =>
    obtain ⟨patience', rfl⟩ := Nat.exists_eq_add_of_le' (Nat.one_le_of_lt hle)
    have hle' : patience ≤ patience' := Nat.le_of_succ_le_succ hle
    rw [gather] at h ⊢
    split_ifs at h ⊢
    · exact h
    rw [Dialogue.run] at h ⊢
    rcases hreceive : Transport.receive k with ⟨reception, k₁⟩
    rw [hreceive] at h
    cases reception with
    | timedOut | failed | cancelled => exact h
    | datagram datagram sender =>
      simp only at h ⊢
      split_ifs at h ⊢
      · split at h
        · exact ih hle' k₁ h
        · exact ih hle' k₁ h
      · exact ih hle' k₁ h

theorem concludes_of_run_gather
    (h : (gather source expected patience count servers).run k = some (result, k')) :
    Dialogue.Concludes (fun patience => gather source expected patience count servers) k result
      k' :=
  .of_extends extends_gather patience h

end Gather

def Extends (σ : Type) [Transport σ] (q q' : Query α) : Prop :=
  ∀ s, Dialogue.Extends σ (q.dialogue s) (q'.dialogue s)

section Extends

theorem Extends.refl (q : Query α) : Extends σ q q := fun _ => .refl _

theorem Extends.bind {q q' : Query α} {f f' : α → Query β} (h : Extends σ q q')
    (hf : ∀ a, Extends σ (f a) (f' a)) : Extends σ (q >>= f) (q' >>= f') := by
  intro s
  rw [dialogue_bind, dialogue_bind]
  refine .bind (h s) fun p => ?_
  cases p.1 with
  | ok a => exact hf a p.2
  | error e => exact .refl _

theorem Extends.ofDialogue {d d' : Dialogue (Except Failure α)} (h : Dialogue.Extends σ d d') :
    Extends σ (ofDialogue d) (ofDialogue d') := by
  intro s
  rw [dialogue_ofDialogue, dialogue_ofDialogue]
  exact .bind h fun _ => .refl _

variable (hle : patience ≤ patience')
include hle

theorem extends_inquiry (target : SocketAddress) (request : Bytes) (accept : Accept α) :
    Extends σ (inquire patience target request accept) (inquire patience' target request accept) :=
  .bind (.refl _) fun _ => .ofDialogue (extends_inquire hle)

theorem extends_token : Extends σ (token patience) (token patience') := by
  refine .bind (.refl _) fun target => .bind (.refl _) fun held => ?_
  cases held with
  | some t => exact .refl _
  | none =>
    exact .bind (.refl _) fun requested => .bind (.refl _) fun _ =>
      .bind (extends_inquiry hle _ _ _) fun t => .refl _

theorem extends_requestFrame (q : Question) :
    Extends σ (requestFrame patience q) (requestFrame patience' q) :=
  .bind (extends_token hle) fun _ => .refl _

theorem extends_question (q : Question) (accept : Accept α) :
    Extends σ (Query.target >>= fun target => requestFrame patience q >>=
        fun frame => inquire patience target frame accept)
      (Query.target >>= fun target => requestFrame patience' q >>=
        fun frame => inquire patience' target frame accept) :=
  .bind (.refl _) fun _ => .bind (extends_requestFrame hle q) fun _ => extends_inquiry hle _ _ _

theorem extends_count : Extends σ (count patience) (count patience') :=
  extends_question hle .count acceptCount

end Extends

def Concludes (q : Nat → Query α) (s : Session) (k : σ) (r : Except Failure α) (s' : Session)
    (k' : σ) : Prop :=
  Dialogue.Concludes (fun patience => (q patience).dialogue s) k (r, s') k'

namespace Concludes

variable {q : Nat → Query α} {f : Nat → α → Query β} {s s₁ s' : Session} {k k₁ k' : σ}

theorem of_extends {r : Except Failure α}
    (hq : ∀ {patience patience'}, patience ≤ patience' → Extends σ (q patience) (q patience'))
    (patience : Nat) (h : ((q patience).dialogue s).run k = some ((r, s'), k')) :
    Concludes q s k r s' k' :=
  Dialogue.Concludes.of_extends (fun hle => hq hle s) patience h

theorem bind {a : α} {r : Except Failure β} (h : Concludes q s k (.ok a) s₁ k₁)
    (h' : Concludes (fun patience => f patience a) s₁ k₁ r s' k') :
    Concludes (fun patience => q patience >>= f patience) s k r s' k' := by
  simp only [Concludes, dialogue_bind]
  exact Dialogue.Concludes.bind h h'

theorem bind_error {e : Failure} (h : Concludes q s k (.error e) s' k') :
    Concludes (fun patience => q patience >>= f patience) s k (.error e) s' k' := by
  simp only [Concludes, dialogue_bind]
  exact Dialogue.Concludes.bind h (.of_run rfl)

theorem target_bind {target : SocketAddress} {f : Nat → SocketAddress → Query β}
    {r : Except Failure β} (ha : s.target = some target)
    (h : Concludes (fun patience => f patience target) s k r s' k') :
    Concludes (fun patience => Query.target >>= f patience) s k r s' k' := by
  simp only [Concludes, dialogue_target_bind ha]
  exact h

theorem get_bind {f : Nat → Session → Query β} {r : Except Failure β}
    (h : Concludes (fun patience => f patience s) s k r s' k') :
    Concludes (fun patience => get >>= f patience) s k r s' k' := h

theorem clock_bind {f : Nat → Time → Query β} {r : Except Failure β}
    (h : Concludes (fun patience => f patience (Transport.now k)) s k r s' k') :
    Concludes (fun patience => clock >>= f patience) s k r s' k' := h

theorem ofDialogue {d : Nat → Dialogue (Except Failure α)} {r : Except Failure α}
    (h : Dialogue.Concludes d k r k') :
    Concludes (fun patience => Query.ofDialogue (d patience)) s k r s k' :=
  Dialogue.Concludes.bind h (.of_run rfl)

theorem inquire {target : SocketAddress} {request : Bytes} {accept : Accept α}
    {r : Except Failure α}
    (h : Dialogue.Concludes (Client.inquire s.settings.pacing target request accept) k r k') :
    Concludes (fun patience => Query.inquire patience target request accept) s k r s k' :=
  ofDialogue h

end Concludes
end Query

end ServerDiscovery.Client
