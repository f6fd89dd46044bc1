import Mathlib.Data.List.Basic
import ServerDiscovery.Proofs.Client.Listing
import ServerDiscovery.Proofs.Client.Timeliness
import ServerDiscovery.Proofs.Simulation.Ending

/-! How long the operations of a session take, whatever its script holds for it. An inquiry takes
one budget at most, and so does a list from the question to its last piece; the spans of what is
done one after the other add up. -/

namespace ServerDiscovery

open Client Query

namespace Simulation

variable {α β : Type} {settings : Settings} {T T₁ T₂ : Time}

/-- From any state of a session with these settings, over any script, it ends within a span. -/
def Ends (settings : Settings) (q : Nat → Query α) (T : Time) : Prop :=
  ∀ (s : Session) (k : Script), s.settings = settings → ∃ r s' k',
    Query.Concludes q s k r s' k' ∧ s'.settings = settings ∧ k'.now ≤ k.now + T

def Instant (q : Query α) : Prop :=
  ∀ (s : Session) (k : Script), ∃ r s',
    (q.dialogue s).run k = some ((r, s'), k) ∧ s'.settings = s.settings

section Instant

theorem instant_pure (x : α) : Instant (pure x) := fun s _ => ⟨.ok x, s, rfl, rfl⟩

theorem instant_ofExcept (x : Except Failure α) : Instant (MonadExcept.ofExcept x) := by
  intro s k
  rw [dialogue_ofExcept]
  exact ⟨x, s, rfl, rfl⟩

theorem instant_get : Instant get := fun s _ => ⟨.ok s, s, rfl, rfl⟩

theorem instant_modifyGet (f : Session → α × Session) (h : ∀ s, (f s).2.settings = s.settings) :
    Instant (modifyGet f) := fun s _ => ⟨.ok (f s).1, (f s).2, rfl, h s⟩

theorem instant_clock : Instant clock := fun s k => ⟨.ok k.now, s, rfl, rfl⟩

theorem instant_target : Instant Query.target := by
  rintro ⟨settings, supply, drawn, target, tokens⟩ k
  cases target with
  | none => exact ⟨_, _, rfl, rfl⟩
  | some a => exact ⟨_, _, rfl, rfl⟩

theorem instant_heldToken (e : Endpoint) : Instant (heldToken e) :=
  fun _ _ => ⟨_, _, rfl, rfl⟩

theorem Instant.ends {q : Query α} (h : Instant q) : Ends settings (fun _ => q) 0 := by
  intro s k hs
  obtain ⟨r, s', hrun, hs'⟩ := h s k
  exact ⟨r, s', k, .of_run hrun, hs'.trans hs, le_rfl⟩

end Instant

namespace Ends

variable {q : Nat → Query α} {f : Nat → α → Query β}

theorem bind (h : Ends settings q T₁) (hf : ∀ x, Ends settings (fun patience => f patience x) T₂)
    (hT : T₁ + T₂ ≤ T) : Ends settings (fun patience => q patience >>= f patience) T := by
  intro s k hs
  obtain ⟨r, s₁, k₁, hq, hs₁, hle⟩ := h s k hs
  cases r with
  | error e => exact ⟨_, s₁, k₁, hq.bind_error, hs₁, by lia⟩
  | ok x =>
    obtain ⟨r, s', k', hx, hs', hle'⟩ := hf x s₁ k₁ hs₁
    exact ⟨r, s', k', hq.bind hx, hs', by lia⟩

theorem mono (h : Ends settings q T₁) (hT : T₁ ≤ T) : Ends settings q T := by
  intro s k hs
  obtain ⟨r, s', k', hq, hs', hle⟩ := h s k hs
  exact ⟨r, s', k', hq, hs', hle.trans (Nat.add_le_add_left hT _)⟩

theorem after {q : Query α} (h : Instant q)
    (hf : ∀ x, Ends settings (fun patience => f patience x) T) :
    Ends settings (fun patience => q >>= f patience) T :=
  bind h.ends hf (Nat.zero_add T).le

end Ends

variable (hmin : 0 < settings.minTimeout)
include hmin

theorem concludes_inquire (target : SocketAddress) (request : Bytes) (accept : Accept α)
    (k : Script) : ∃ result k',
      Dialogue.Concludes (Client.inquire settings.pacing target request accept) k result k' ∧
        k'.now ≤ k.now + settings.pacing.budget := by
  obtain ⟨rounds, result, k', hrounds⟩ := Script.exists_rounds accept k
    (x := .start target request settings.pacing k.now) le_rfl fun _ => hmin
  have hend := hrounds.concludes
  obtain ⟨enough, hrun⟩ := id hend
  obtain ⟨os, hcourse⟩ := Dialogue.course_of_run (hrun enough le_rfl)
  exact ⟨result, k', hend, (timely_of_course hcourse).now_le⟩

theorem ends_inquire (target : SocketAddress) (request : Bytes) (accept : Accept α) :
    Ends settings (fun patience => Query.inquire patience target request accept)
      settings.pacing.budget := by
  rintro s k rfl
  obtain ⟨result, k', hend, hle⟩ := concludes_inquire hmin target request accept k
  exact ⟨result, s, k', .inquire hend, rfl, hle⟩

theorem ends_token : Ends settings token settings.pacing.budget := by
  refine .after instant_target fun target => .after (instant_heldToken _) fun held => ?_
  cases held with
  | some t => exact (instant_pure t).ends.mono (Nat.zero_le _)
  | none =>
    refine .after (instant_modifyGet _ fun _ => rfl) fun requested => .after instant_get fun s => ?_
    refine .bind (ends_inquire hmin _ _ _) (fun t => ?_) (Nat.add_zero _).le
    exact .after instant_clock fun now => .after (instant_modifyGet _ fun _ => rfl) fun _ =>
      (instant_pure t).ends

theorem ends_requestFrame (q : Question) :
    Ends settings (fun patience => requestFrame patience q) settings.pacing.budget :=
  .bind (ends_token hmin) (fun _ => .after instant_clock fun _ => (instant_ofExcept _).ends)
    (Nat.add_zero _).le

theorem ends_question (q : Question) (accept : SocketAddress → Accept α) :
    Ends settings (fun patience => Query.target >>= fun target => requestFrame patience q >>=
      fun frame => Query.inquire patience target frame (accept target))
      (2 * settings.pacing.budget) :=
  .after instant_target fun target => .bind (ends_requestFrame hmin q)
    (fun frame => ends_inquire hmin target frame (accept target)) (Nat.two_mul _).ge

omit hmin in
theorem exists_run_gather (e : Endpoint) (expected : Nat) {patience : Nat} {k : Script}
    (hpatience : k.queue.length < patience) (count : Nat) (servers : List Endpoint) :
    ∃ result k', (gather e expected patience count servers).run k = some (result, k') := by
  induction patience generalizing k count servers with
  | zero => exact absurd hpatience (Nat.not_lt_zero _)
  | succ patience ih =>
    rw [gather]
    split_ifs
    · exact ⟨_, _, rfl⟩
    rcases hreceive : Transport.receive k with ⟨reception, k₁⟩
    rw [Dialogue.run, hreceive]
    cases reception with
    | timedOut | failed | cancelled => exact ⟨_, _, rfl⟩
    | datagram datagram sender =>
      have hlength : k.queue.length = 1 + k₁.queue.length :=
        Script.length_queue (Script.unread_receive hreceive)
      have hrest : ∀ count servers, ∃ result k',
          (gather e expected patience count servers).run k₁ = some (result, k') :=
        fun count servers => ih (by lia) count servers
      dsimp only
      split_ifs
      · split <;> exact hrest _ _
      · exact hrest _ _

omit hmin in
theorem concludes_gather (e : Endpoint) (expected count : Nat) (servers : List Endpoint)
    (deadline : Time) (k : Script) : ∃ result k',
      Dialogue.Concludes (fun patience =>
        .readUntil deadline (gather e expected patience count servers)) k result k' ∧
        k'.now ≤ max k.now deadline := by
  let opened : Script := Transport.readUntil deadline k
  obtain ⟨result, k', hrun⟩ := exists_run_gather e expected
    (Nat.lt_succ_self opened.queue.length) count servers
  have hend : Dialogue.Concludes (fun patience =>
      .readUntil deadline (gather e expected patience count servers)) k result k' :=
    concludes_of_run_gather hrun
  obtain ⟨os, hcourse⟩ := Dialogue.course_of_run hrun
  exact ⟨result, k', hend, (end_of_course_gather hcourse).1⟩

theorem ends_pieces (a : SocketAddress) (expected : Nat) (frame : Bytes) :
    Ends settings (fun patience => do
      let started ← clock
      let first ← Query.inquire patience a frame acceptList
      let deadline := started + (← get).settings.pacing.budget
      ofDialogue <| .readUntil deadline <|
        gather (.ofSocket a) expected patience 1 (unseen [] first)) settings.pacing.budget := by
  rintro s k rfl
  obtain ⟨result, k₁, hfirst, hle⟩ := concludes_inquire hmin a frame acceptList k
  have hasked := Query.Concludes.inquire hfirst
  cases result with
  | error e => exact ⟨_, s, k₁, .clock_bind hasked.bind_error, rfl, hle⟩
  | ok first =>
    obtain ⟨result, k', hend, hlater⟩ := concludes_gather (.ofSocket a) expected 1 (unseen [] first)
      (k.now + s.settings.pacing.budget) k₁
    exact ⟨result, s, k', .clock_bind (hasked.bind (.get_bind (.ofDialogue hend))), rfl,
      hlater.trans (max_le hle le_rfl)⟩

theorem ends_listing (a : SocketAddress) (expected : Nat) :
    Ends settings (listing a expected) (2 * settings.pacing.budget) :=
  .bind (ends_requestFrame hmin .list) (ends_pieces hmin a expected) (Nat.two_mul _).ge

theorem ends_servers : Ends settings servers (4 * settings.pacing.budget) := by
  have hcount : Ends settings count (2 * settings.pacing.budget) :=
    ends_question hmin .count fun _ => acceptCount
  refine .after instant_target fun a => .bind hcount (fun n => ?_) (Nat.add_mul 2 2 _).ge
  rcases eq_or_ne n 0 with rfl | hn
  · exact (instant_pure []).ends.mono (Nat.zero_le _)
  · simp only [if_neg hn]
    exact ends_listing hmin a (expectedChunks n)

/-- Whatever a session has done before, whatever its script holds and whichever sends fail, each of
its operations comes to an end: a token within the budget, a question within twice and a list within
four times that, and all pieces of the list within one budget from the moment at which it was asked
for. -/
theorem ends_in_time :
    Ends settings token (max settings.readTimeout settings.minTimeout) ∧
      Ends settings count (2 * max settings.readTimeout settings.minTimeout) ∧
      Ends settings record (2 * max settings.readTimeout settings.minTimeout) ∧
      Ends settings servers (4 * max settings.readTimeout settings.minTimeout) ∧
      ∀ s s₁ s₂ (k k₁ k₂ : Script) a n frame, s.settings = settings → s.target = some a →
        Query.Concludes count s k (.ok n) s₁ k₁ → n ≠ 0 →
        Query.Concludes (fun patience => requestFrame patience .list) s₁ k₁ (.ok frame) s₂ k₂ →
        ∃ r s' k', Query.Concludes servers s k r s' k' ∧
          k'.now ≤ k₂.now + max settings.readTimeout settings.minTimeout := by
  have hcount : Ends settings count (2 * settings.pacing.budget) :=
    ends_question hmin .count fun _ => acceptCount
  have hrecord : Ends settings record (2 * settings.pacing.budget) :=
    ends_question hmin .info fun _ => acceptRecord
  refine ⟨ends_token hmin, hcount, hrecord, ends_servers hmin, ?_⟩
  intro s s₁ s₂ k k₁ k₂ a n frame hs ha hn hne hframe
  obtain ⟨_, _, _, hn', hs₁, -⟩ := hcount s k hs
  obtain ⟨hsame, rfl⟩ := hn.unique hn'
  cases hsame
  obtain ⟨_, _, _, hframe', hs₂, -⟩ := ends_requestFrame hmin .list s₁ k₁ hs₁
  obtain ⟨hsame, rfl⟩ := hframe.unique hframe'
  cases hsame
  obtain ⟨r, s', k', hpieces, -, hle⟩ := ends_pieces hmin a (expectedChunks n) frame s₂ k₂ hs₂
  exact ⟨r, s', k', .servers_of_count ha hn hne (hframe.bind hpieces), hle⟩

omit hmin in
theorem ends_in_time_hostile : ∃ r s' k', Query.Concludes servers
    ((Session.new {} fun _ => 7).aim (.v4 ⟨10, 0, 0, 1⟩ 8300))
    (Script.new [⟨1, 0, .datagram [1] (.v4 ⟨10, 0, 0, 2⟩ 8300)⟩, ⟨2, 0, .failure⟩,
      ⟨3, 0, .datagram [] (.v4 ⟨10, 0, 0, 1⟩ 8300)⟩] [0, 1] none) r s' k' ∧ k'.now ≤ 64000 := by
  have hmin : 0 < ({} : Settings).minTimeout := by decide
  obtain ⟨r, s', k', hend, -, hle⟩ := (ends_in_time hmin).2.2.2.1
    ((Session.new {} fun _ => 7).aim (.v4 ⟨10, 0, 0, 1⟩ 8300)) (Script.new _ [0, 1] none) rfl
  exact ⟨r, s', k', hend, hle⟩

end Simulation
end ServerDiscovery
