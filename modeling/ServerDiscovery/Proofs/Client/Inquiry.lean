import Mathlib.Data.List.Basic
import ServerDiscovery.Client.Inquiry
import ServerDiscovery.Proofs.Client.Course

/-! What an inquiry sends, and what ends it. All copies are sent within the budget; the first reply
from the target that is acceptable ends the inquiry, whatever was received before it. -/

namespace ServerDiscovery.Client

open Dialogue

namespace Inquiry

variable {α : Type} {x : Inquiry} {accept : Accept α} {m m' : Moment} {os : List Occurrence}
  {r : Option (Except Failure α)} {patience : Nat}

@[simp] theorem backOff_target (x : Inquiry) (now : Time) : (x.backOff now).target = x.target := rfl
@[simp] theorem backOff_request (x : Inquiry) (now : Time) :
    (x.backOff now).request = x.request := rfl
@[simp] theorem backOff_pacing (x : Inquiry) (now : Time) : (x.backOff now).pacing = x.pacing := rfl
@[simp] theorem backOff_started (x : Inquiry) (now : Time) :
    (x.backOff now).started = x.started := rfl

theorem lt_of_left_ne_zero {now : Time} (h : x.left now ≠ 0) :
    now < x.started + x.pacing.budget := by
  simp only [left] at h
  lia

theorem left_ne_zero {now : Time} (hstart : x.started ≤ now)
    (h : now < x.started + x.pacing.budget) : x.left now ≠ 0 := by
  simp only [left]
  lia

theorem backOff_window_pos {now : Time} (hw : 0 < x.window) (hleft : x.left now ≠ 0) :
    0 < (x.backOff now).window := by
  simp only [backOff]
  lia

/-- What occurs in an inquiry, and how it ends. -/
structure Asked (x : Inquiry) (accept : Accept α) (os : List Occurrence)
    (r : Option (Except Failure α)) (m' : Moment) : Prop where
  sent : ∀ t target datagram copies, .sent t target datagram copies ∈ os →
    target = x.target ∧ datagram = x.request ∧ t < x.started + x.pacing.budget
  settled : ∀ a, r = some (.ok a) → ∃ before payload source,
    os = before ++ [.received m'.now (.datagram payload source)] ∧
      x.isFromTarget source = true ∧ accept m'.now payload source = .ok a
  last : ∀ before t payload source after a,
    os = before ++ .received t (.datagram payload source) :: after →
      x.isFromTarget source = true → accept t payload source = .ok a →
        after = [] ∧ ∀ r', r = some r' → r' = .ok a
  failed : ∀ f, r = some (.error f) → f = .timeout ∨ f = .cancelled

theorem Asked.nil (h : ∀ r', r = some r' → r' = .error .timeout) : Asked x accept [] r m' where
  sent := by simp
  settled a ha := by cases h _ ha
  last before t payload source after a hos := by simp at hos
  failed f hf := .inl (by simpa using h _ hf)

theorem Asked.cons_sent {n : Nat} (hm : m.now < x.started + x.pacing.budget)
    (h : Asked x accept os r m') :
    Asked x accept (.sent m.now x.target x.request n :: os) r m' where
  sent t target datagram copies ho := by
    rcases List.mem_cons.mp ho with ho | ho
    · cases ho
      exact ⟨rfl, rfl, hm⟩
    · exact h.sent t target datagram copies ho
  settled a ha := by
    obtain ⟨before, payload, source, rfl, hrest⟩ := h.settled a ha
    exact ⟨_ :: before, payload, source, rfl, hrest⟩
  last before t payload source after a hos := by
    cases before with
    | nil => simp at hos
    | cons o before =>
      rw [List.cons_append, List.cons.injEq] at hos
      exact h.last before t payload source after a hos.2
  failed := h.failed

theorem Asked.cons_received {t : Time} {reception : Reception}
    (hno : ∀ payload source a, reception = .datagram payload source →
      x.isFromTarget source = true → accept t payload source ≠ .ok a)
    (h : Asked x accept os r m') : Asked x accept (.received t reception :: os) r m' where
  sent t' target datagram copies ho := by
    rcases List.mem_cons.mp ho with ho | ho
    · cases ho
    · exact h.sent t' target datagram copies ho
  settled a ha := by
    obtain ⟨before, payload, source, rfl, hrest⟩ := h.settled a ha
    exact ⟨_ :: before, payload, source, rfl, hrest⟩
  last before t' payload source after a hos hfrom hok := by
    cases before with
    | nil =>
      rw [List.nil_append, List.cons.injEq] at hos
      cases hos.1
      exact absurd hok (hno payload source a rfl hfrom)
    | cons o before =>
      rw [List.cons_append, List.cons.injEq] at hos
      exact h.last before t' payload source after a hos.2 hfrom hok
  failed := h.failed

theorem of_course_attempt {wait : Dialogue (Except Failure α)}
    (hwait : ∀ m os, Course wait m os r m' → x.started ≤ m.now → Asked x accept os r m')
    (h : Course (x.attempt wait) m os r m') (hm : x.started ≤ m.now) : Asked x accept os r m' := by
  cases h with
  | broken => exact .nil (by simp)
  | clock h =>
    simp only at h
    split_ifs at h with hleft
    · cases h with
      | broken => exact .nil (by simp)
      | finish => exact .nil (by simp)
    · cases h with
      | broken => exact .nil (by simp)
      | readUntil h =>
        cases h with
        | broken => exact .nil (by simp)
        | writeUntil h =>
          cases h with
          | broken => exact .nil (by simp)
          | send h => exact (hwait _ _ h hm).cons_sent (lt_of_left_ne_zero hleft)

theorem Asked.of_backOff {now : Time} (h : Asked (x.backOff now) accept os r m') :
    Asked x accept os r m' := ⟨h.sent, h.settled, h.last, h.failed⟩

theorem judge_of_isFromTarget {now : Time} {payload : Bytes} {source : SocketAddress}
    (hfrom : x.isFromTarget source = true) :
    x.judge accept now (.datagram payload source) =
      match accept now payload source with
      | .ok a => .settle (.ok a)
      | .error _ => .reject := by
  cases haccept : accept now payload source <;> simp [judge, hfrom, haccept]

theorem judge_datagram {now : Time} {payload : Bytes} {source : SocketAddress} {a : α}
    (hfrom : x.isFromTarget source = true) (hok : accept now payload source = .ok a) :
    x.judge accept now (.datagram payload source) = .settle (.ok a) := by
  rw [judge_of_isFromTarget hfrom, hok]

theorem judge_settle {now : Time} {reception : Reception} {result : Except Failure α}
    (h : x.judge accept now reception = .settle result) :
    (reception = .cancelled ∧ result = .error .cancelled) ∨
      ∃ payload source a, reception = .datagram payload source ∧ x.isFromTarget source = true ∧
        accept now payload source = .ok a ∧ result = .ok a := by
  cases reception with
  | datagram payload source =>
    simp only [judge] at h
    split at h
    · split at h
      · rename_i hfrom _ a hok
        cases h
        exact .inr ⟨payload, source, a, rfl, hfrom, hok, rfl⟩
      · cases h
    · cases h
  | timedOut => cases h
  | failed => cases h
  | cancelled => cases h; exact .inl ⟨rfl, rfl⟩

theorem Asked.single_received {t : Time} {reception : Reception}
    (h : ∀ result, r = some result → x.judge accept t reception = .settle result ∧ t = m'.now) :
    Asked x accept [.received t reception] r m' where
  sent t' target datagram copies ho := by simp at ho
  settled a ha := by
    obtain ⟨hj, rfl⟩ := h _ ha
    rcases judge_settle hj with ⟨_, hr⟩ | ⟨payload, source, b, rfl, hfrom, hok, hr⟩
    · cases hr
    · cases hr
      exact ⟨[], payload, source, rfl, hfrom, hok⟩
  last before t' payload source after a hos hfrom hok := by
    obtain ⟨rfl, ⟨rfl, rfl⟩, rfl⟩ : before = [] ∧ _ ∧ after = [] := by
      simpa [List.cons_eq_append_iff] using hos
    refine ⟨rfl, fun r' hr => ?_⟩
    have hj := (h r' hr).1
    rw [judge_datagram hfrom hok] at hj
    cases hj
    rfl
  failed f hf := by
    rcases judge_settle (h _ hf).1 with ⟨_, hr⟩ | ⟨_, _, _, _, _, _, hr⟩
    · cases hr
      exact .inr rfl
    · cases hr

theorem of_course_await (patience : Nat) (h : Course (await accept patience x) m os r m')
    (hm : x.started ≤ m.now) : Asked x accept os r m' := by
  induction patience generalizing x m os with
  | zero => cases h; exact .nil (by simp)
  | succ patience ih =>
    cases h with
    | broken => exact .nil (by simp)
    | receive reception t hle _ _ h =>
      -- What is not settled as accepted was no acceptable reply of the target.
      have hno : (∀ result, x.judge accept t reception ≠ .settle (.ok result)) →
          ∀ payload source a, reception = .datagram payload source →
            x.isFromTarget source = true → accept t payload source ≠ .ok a := by
        rintro hj payload source a rfl hfrom hok
        exact hj a (judge_datagram hfrom hok)
      cases h with
      | broken => exact .single_received (by simp)
      | clock h =>
        simp only at h
        cases hj : x.judge accept t reception with
        | ignore =>
          rw [hj] at h
          exact (ih h (hm.trans hle)).cons_received (hno (by simp [hj]))
        | reject =>
          rw [hj] at h
          have hx := of_course_attempt (fun m os h hm => ih h hm) h (hm.trans hle)
          exact hx.of_backOff.cons_received (hno (by simp [hj]))
        | settle result =>
          rw [hj] at h
          cases h with
          | broken => exact .single_received (by simp)
          | finish =>
            refine .single_received fun result' hr => ?_
            cases hr
            exact ⟨hj, rfl⟩

theorem still_of_course_attempt {wait : Dialogue (Except Failure α)}
    (hwait : ∀ m os, Course wait m os r m' → m.deadline ≤ m.now → ∀ o ∈ os, o.time = m.now)
    (h : Course (x.attempt wait) m os r m') (hx : x.window = 0) : ∀ o ∈ os, o.time = m.now := by
  cases h with
  | broken => simp
  | clock h =>
    simp only at h
    split_ifs at h
    · cases h <;> simp
    · cases h with
      | broken => simp
      | readUntil h =>
        cases h with
        | broken => simp
        | writeUntil h =>
          cases h with
          | broken => simp
          | send h =>
            have hrest := hwait _ _ h (by simp [hx])
            simpa [Occurrence.time] using hrest

theorem still_of_course_await (patience : Nat) (h : Course (await accept patience x) m os r m')
    (hx : x.window = 0) (hm : m.deadline ≤ m.now) : ∀ o ∈ os, o.time = m.now := by
  induction patience generalizing x m os with
  | zero => cases h; simp
  | succ patience ih =>
    cases h with
    | broken => simp
    | receive reception t hle hdeadline _ h =>
      -- The deadline is over already, so the reception takes no time.
      obtain rfl : t = m.now := le_antisymm (by simpa [hm] using hdeadline) hle
      refine List.forall_mem_cons.mpr ⟨rfl, ?_⟩
      cases h with
      | broken => simp
      | clock h =>
        simp only at h
        cases hj : x.judge accept m.now reception with
        | ignore =>
          rw [hj] at h
          exact ih h hx hm
        | reject =>
          rw [hj] at h
          have hback : (x.backOff m.now).window = 0 := by simp [backOff, hx]
          exact still_of_course_attempt (fun m os h hm => ih h hback hm) h hback
        | settle result =>
          rw [hj] at h
          cases h <;> simp

end Inquiry

structure Inquired {α : Type} (pacing : Pacing) (target : SocketAddress) (request : Bytes)
    (accept : Accept α) (m : Moment) (os : List Occurrence) (r : Option (Except Failure α))
    (m' : Moment) : Prop
    extends (Inquiry.start target request pacing m.now).Asked accept os r m' where
  head : ∀ o ∈ os.head?, o = .sent m.now target request 1
  now_le : m.now ≤ m'.now
  time_mem : ∀ o ∈ os, m.now ≤ o.time ∧ o.time ≤ m'.now
  still : pacing.firstWindow = 0 → ∀ o ∈ os, o.time = m.now

def Paced (pacing : Pacing) (first t : Time) : Prop :=
  first ≤ t ∧ t < first + pacing.budget ∧ (pacing.firstWindow = 0 → t = first)

theorem Inquired.of_sent {α : Type} {pacing : Pacing} {target : SocketAddress} {request : Bytes}
    {accept : Accept α} {m m' : Moment} {os : List Occurrence} {r : Option (Except Failure α)}
    (h : Inquired pacing target request accept m os r m') {t : Time} {target' : SocketAddress}
    {datagram : Bytes} {copies : Nat} (ho : .sent t target' datagram copies ∈ os) :
    target' = target ∧ datagram = request ∧ Paced pacing m.now t := by
  obtain ⟨ha, hd, ht⟩ := h.sent t target' datagram copies ho
  exact ⟨ha, hd, (h.time_mem _ ho).1, ht, fun hw => h.still hw _ ho⟩

theorem inquired_of_course {α : Type} {pacing : Pacing} {target : SocketAddress} {request : Bytes}
    {accept : Accept α} {patience : Nat} {m m' : Moment} {os : List Occurrence}
    {r : Option (Except Failure α)}
    (h : Course (inquire pacing target request accept patience) m os r m') :
    Inquired pacing target request accept m os r m' := by
  have hle := h.now_le
  have htime := h.time_mem
  cases h with
  | broken => exact ⟨.nil (by simp), by simp, hle, htime, by simp⟩
  | clock h =>
    refine ⟨Inquiry.of_course_attempt (fun _ _ h hm => Inquiry.of_course_await patience h hm) h
      le_rfl, ?_, hle, htime, fun hw => Inquiry.still_of_course_attempt
        (fun _ _ h hm => Inquiry.still_of_course_await patience h hw hm) h hw⟩
    cases h with
    | broken => simp
    | clock h =>
      simp only at h
      split_ifs at h
      · cases h <;> simp
      · cases h with
        | broken => simp
        | readUntil h =>
          cases h with
          | broken => simp
          | writeUntil h => cases h <;> simp [Inquiry.start]

end ServerDiscovery.Client
