import Mathlib.Order.MinMax
import ServerDiscovery.Proofs.Client.Watch
import ServerDiscovery.Proofs.Simulation.Lawful

/-! An inquiry keeps to its budget. It ends with the first acceptable reply, or else when the budget
is used up and not a moment before or after, whatever is received and whichever sends fail. -/

namespace ServerDiscovery.Client

open Dialogue

namespace Inquiry

variable {α : Type} {x : Inquiry} {accept : Accept α} {m m' : Moment} {os : List Occurrence}
  {r : Option (Except Failure α)} {now : Time}

def limit (x : Inquiry) : Time := x.started + x.pacing.budget

theorem limit_le_of_left_eq_zero (hstarted : x.started ≤ now) (hleft : x.left now = 0) :
    x.limit ≤ now := by
  have hspent : x.pacing.budget ≤ now - x.started := Nat.sub_eq_zero_iff_le.mp hleft
  calc x.limit ≤ x.started + (now - x.started) := Nat.add_le_add_left hspent _
    _ = now := Nat.add_sub_cancel' hstarted

theorem deadline_le_limit (hstarted : x.started ≤ now) (hnow : now ≤ x.limit) :
    now + min x.window (x.left now) ≤ x.limit := by
  have hspent : now - x.started ≤ x.pacing.budget := Nat.sub_le_iff_le_add'.mpr hnow
  calc now + min x.window (x.left now)
      ≤ now + x.left now := Nat.add_le_add_left (Nat.min_le_right _ _) _
    _ = x.started + (now - x.started) + x.left now := by rw [Nat.add_sub_cancel' hstarted]
    _ = x.limit := by rw [Nat.add_assoc, left, Nat.add_sub_cancel' hspent, limit]

/-- An inquiry has not gone beyond its budget, and what it ends for is the case. -/
structure Timely (x : Inquiry) (os : List Occurrence) (r : Option (Except Failure α))
    (m' : Moment) : Prop where
  now_le : m'.now ≤ x.limit
  timeout : r = some (.error .timeout) → m'.now = x.limit
  cancelled : r = some (.error .cancelled) → ∃ t, .received t .cancelled ∈ os

theorem Timely.broken (hnow : m'.now ≤ x.limit) :
    Timely x os (none : Option (Except Failure α)) m' where
  now_le := hnow
  timeout h := nomatch h
  cancelled h := nomatch h

theorem Timely.cons (h : Timely x os r m') (o : Occurrence) : Timely x (o :: os) r m' where
  now_le := h.now_le
  timeout := h.timeout
  cancelled hr := by
    obtain ⟨t, ht⟩ := h.cancelled hr
    exact ⟨t, List.mem_cons_of_mem _ ht⟩

theorem Timely.of_backOff (h : Timely (x.backOff now) os r m') : Timely x os r m' :=
  ⟨h.now_le, h.timeout, h.cancelled⟩

theorem timely_of_course_attempt {wait : Dialogue (Except Failure α)}
    (hwait : ∀ m os, Course wait m os r m' → x.started ≤ m.now → m.now ≤ x.limit →
      m.deadline ≤ x.limit → Timely x os r m')
    (h : Course (x.attempt wait) m os r m') (hstarted : x.started ≤ m.now)
    (hnow : m.now ≤ x.limit) : Timely x os r m' := by
  cases h with
  | broken => exact .broken hnow
  | clock h =>
    dsimp only at h
    split_ifs at h with hleft
    · have hend : m.now = x.limit :=
        le_antisymm hnow (limit_le_of_left_eq_zero hstarted hleft)
      cases h with
      | broken => exact .broken hnow
      | finish => exact ⟨hnow, fun _ => hend, nofun⟩
    · cases h with
      | broken => exact .broken hnow
      | readUntil h =>
        cases h with
        | broken => exact .broken hnow
        | writeUntil h =>
          cases h with
          | broken => exact .broken hnow
          | send h =>
            have hdeadline := deadline_le_limit hstarted hnow
            exact (hwait _ _ h hstarted hnow hdeadline).cons _

theorem timely_of_course_await (patience : Nat) (h : Course (await accept patience x) m os r m')
    (hstarted : x.started ≤ m.now) (hnow : m.now ≤ x.limit) (hdeadline : m.deadline ≤ x.limit) :
    Timely x os r m' := by
  induction patience generalizing x m os with
  | zero =>
    cases h
    exact .broken hnow
  | succ patience ih =>
    cases h with
    | broken => exact .broken hnow
    | receive reception t hle hwait _ h =>
      -- A reception ends by the deadline, so the next attempt begins within the budget too.
      have hlater : x.started ≤ t := hstarted.trans hle
      have hintime : t ≤ x.limit := hwait.trans (max_le hnow hdeadline)
      cases h with
      | broken => exact .broken hintime
      | clock h =>
        dsimp only at h
        cases hjudge : x.judge accept t reception with
        | ignore =>
          rw [hjudge] at h
          exact (ih h hlater hintime hdeadline).cons _
        | reject =>
          rw [hjudge] at h
          have hnext := timely_of_course_attempt (fun _ _ h => ih h) h hlater hintime
          exact hnext.of_backOff.cons _
        | settle result =>
          rw [hjudge] at h
          cases h with
          | broken => exact .broken hintime
          | finish =>
            rcases judge_settle hjudge with ⟨rfl, rfl⟩ | ⟨_, _, a, _, _, _, rfl⟩
            · exact ⟨hintime, nofun, fun _ => ⟨t, List.mem_singleton_self _⟩⟩
            · exact ⟨hintime, nofun, nofun⟩

end Inquiry

section Outcome

variable {α : Type} {pacing : Pacing} {target : SocketAddress} {request : Bytes} {accept : Accept α}
  {patience : Nat} {m m' : Moment} {os : List Occurrence} {r : Option (Except Failure α)}

theorem timely_of_course (h : Course (inquire pacing target request accept patience) m os r m') :
    (Inquiry.start target request pacing m.now).Timely os r m' := by
  have hnow : m.now ≤ (Inquiry.start target request pacing m.now).limit := Nat.le_add_right _ _
  cases h with
  | broken => exact .broken hnow
  | clock h =>
    exact Inquiry.timely_of_course_attempt
      (fun _ _ h => Inquiry.timely_of_course_await patience h) h le_rfl hnow

def NoneAccepted (accept : Accept α) (target : SocketAddress) (os : List Occurrence) : Prop :=
  ∀ t payload source, .received t (.datagram payload source) ∈ os →
    Endpoint.ofSocket source = .ofSocket target → ∃ f, accept t payload source = .error f

theorem Inquired.noneAccepted {before after : List Occurrence} {result : Except Failure α}
    (h : Inquired pacing target request accept m os (some result) m') (hos : os = before ++ after)
    (hmore : after ≠ [] ∨ ∀ a, result ≠ .ok a) : NoneAccepted accept target before := by
  intro t payload source hmem hsource
  cases haccept : accept t payload source with
  | error f => exact ⟨f, rfl⟩
  | ok a =>
    obtain ⟨pre, post, rfl⟩ := List.append_of_mem hmem
    have hsplit : os = pre ++ .received t (.datagram payload source) :: (post ++ after) := by
      rw [hos, List.append_assoc, List.cons_append]
    obtain ⟨hnil, hend⟩ := h.last pre t payload source _ a hsplit (decide_eq_true hsource) haccept
    rcases hmore with hafter | hnot
    · exact absurd (List.append_eq_nil_iff.mp hnil).2 hafter
    · exact absurd (hend result rfl) (hnot a)

/-- What an inquiry gives in the end, over any transport on which only receptions take time: the
meaning of the first acceptable reply, or the news that none has come within the budget. -/
theorem inquire_outcome {σ : Type} [Transport σ] [LawfulTransport σ] {k k' : σ}
    {result : Except Failure α}
    (hrun : (inquire pacing target request accept patience).watch k = (os, some (result, k')))
    (hcancelled : ∀ t, .received t .cancelled ∉ os) :
    (∃ a before payload source, result = .ok a ∧
        os = before ++ [.received (Transport.now k') (.datagram payload source)] ∧
        Endpoint.ofSocket source = .ofSocket target ∧
        accept (Transport.now k') payload source = .ok a ∧ NoneAccepted accept target before ∧
        Transport.now k' ≤ Transport.now k + pacing.budget) ∨
      (result = .error .timeout ∧ NoneAccepted accept target os ∧
        Transport.now k' = Transport.now k + pacing.budget) := by
  obtain ⟨m', hcourse, hmoment⟩ := (inquire pacing target request accept patience).course_watch k
  rw [hrun] at hcourse hmoment
  obtain rfl : m' = moment k' := hmoment _ rfl
  have hinquired := inquired_of_course hcourse
  have htimely := timely_of_course hcourse
  cases result with
  | ok a =>
    obtain ⟨before, payload, source, hos, hsource, haccept⟩ := hinquired.settled a rfl
    have hbefore := hinquired.noneAccepted hos (.inl (List.cons_ne_nil _ _))
    exact .inl ⟨a, before, payload, source, rfl, hos, of_decide_eq_true hsource, haccept, hbefore,
      htimely.now_le⟩
  | error f =>
    rcases hinquired.failed f rfl with rfl | rfl
    · have hnone := hinquired.noneAccepted (List.append_nil os).symm (.inr nofun)
      exact .inr ⟨rfl, hnone, htimely.timeout rfl⟩
    · obtain ⟨t, ht⟩ := htimely.cancelled rfl
      exact absurd ht (hcancelled t)

section Rough

open Simulation

def roughServer : SocketAddress := .v4 ⟨10, 0, 0, 1⟩ 8303
def roughServerMapped : SocketAddress := .v6 (Ip4.mapped ⟨10, 0, 0, 1⟩) 8303 0 0
def roughStranger : SocketAddress := .v4 ⟨10, 0, 0, 2⟩ 8303

def acceptsOne : Accept Bytes := fun _ payload _ =>
  if payload = [1] then .ok payload else .error (.wire .truncated)

def roughScript : Script :=
  .new [⟨5, 0, .datagram [1] roughStranger⟩, ⟨10, 0, .failure⟩, ⟨20, 0, .datagram [0] roughServer⟩,
    ⟨50, 0, .datagram [1] roughServerMapped⟩] [1] none

def roughOccurrences : List Occurrence :=
  [.sent 0 roughServer [7] 1, .received 5 (.datagram [1] roughStranger), .received 10 .failed,
    .sent 10 roughServer [7] 2, .received 20 (.datagram [0] roughServer),
    .sent 20 roughServer [7] 4, .received 50 (.datagram [1] roughServerMapped)]

theorem inquire_outcome_rough : ∃ k' : Script,
    (inquire (.uniform 100 35) roughServer [7] acceptsOne 9).watch roughScript =
        (roughOccurrences, some (.ok [1], k')) ∧
      NoneAccepted acceptsOne roughServer roughOccurrences.dropLast ∧ k'.now ≤ 100 := by
  have hend : ∃ k' : Script, (inquire (.uniform 100 35) roughServer [7] acceptsOne 9).watch
      roughScript = (roughOccurrences, some (.ok [1], k')) := ⟨_, rfl⟩
  obtain ⟨k', hrun⟩ := hend
  have hcancelled : ∀ t, .received t .cancelled ∉ roughOccurrences := by simp [roughOccurrences]
  rcases inquire_outcome hrun hcancelled with
    ⟨a, before, payload, source, -, hos, -, -, hbefore, hle⟩ | ⟨hfalse, -⟩
  · have hinit : before = roughOccurrences.dropLast := by rw [hos, List.dropLast_concat]
    exact ⟨k', hrun, hinit ▸ hbefore, hle⟩
  · cases hfalse

end Rough
end Outcome
end ServerDiscovery.Client
