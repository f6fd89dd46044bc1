import Mathlib.Order.MinMax
import ServerDiscovery.Client.Dialogue

/-! All that may happen in a dialogue, whatever its socket and its network do. The environment hands
over anything at any time, so long as the clock does not go back and no wait outlasts its deadline.
A course may break off anywhere, so that what holds of all courses holds of every moment in one. -/

namespace ServerDiscovery.Client

structure Moment where
  now : Time
  deadline : Time

inductive Occurrence where
  | sent (time : Time) (target : SocketAddress) (datagram : Bytes) (copies : Nat)
  | received (time : Time) (reception : Reception)
  deriving DecidableEq

def Occurrence.time : Occurrence → Time
  | sent time _ _ _ => time
  | received time _ => time

namespace Dialogue

/-- A dialogue, observed from one moment to another: what occurs, and its result if it got there. -/
inductive Course {α : Type} :
    Dialogue α → Moment → List Occurrence → Option α → Moment → Prop where
  | broken (d : Dialogue α) (m : Moment) : Course d m [] none m
  | finish (a : α) (m : Moment) : Course (.finish a) m [] (some a) m
  | clock {next : Time → Dialogue α} {m m' : Moment} {os : List Occurrence} {r : Option α} :
      Course (next m.now) m os r m' → Course (.clock next) m os r m'
  | readUntil {deadline : Time} {next : Dialogue α} {m m' : Moment} {os : List Occurrence}
      {r : Option α} :
      Course next ⟨m.now, deadline⟩ os r m' → Course (.readUntil deadline next) m os r m'
  | writeUntil {deadline : Time} {next : Dialogue α} {m m' : Moment} {os : List Occurrence}
      {r : Option α} :
      Course next m os r m' → Course (.writeUntil deadline next) m os r m'
  | send {target : SocketAddress} {datagram : Bytes} {copies : Nat} {next : Dialogue α}
      {m m' : Moment} {os : List Occurrence} {r : Option α} :
      Course next m os r m' →
      Course (.send target datagram copies next) m (.sent m.now target datagram copies :: os) r m'
  | receive {next : Reception → Dialogue α} {m m' : Moment} {os : List Occurrence} {r : Option α}
      (x : Reception) (t : Time) :
      m.now ≤ t → t ≤ max m.now m.deadline →
      (x = .timedOut → t = max m.now m.deadline) →
      Course (next x) ⟨t, m.deadline⟩ os r m' →
      Course (.receive next) m (.received t x :: os) r m'

namespace Course

variable {α β : Type} {m m' : Moment} {os : List Occurrence}

theorem now_le {d : Dialogue α} {r : Option α} (h : Course d m os r m') : m.now ≤ m'.now := by
  induction h with
  | broken | finish => exact le_rfl
  | clock _ ih | readUntil _ ih | writeUntil _ ih | send _ ih => exact ih
  | receive x t hle _ _ _ ih => exact hle.trans ih

theorem time_mem {d : Dialogue α} {r : Option α} (h : Course d m os r m') :
    ∀ o ∈ os, m.now ≤ o.time ∧ o.time ≤ m'.now := by
  induction h with
  | broken | finish => simp
  | clock _ ih | readUntil _ ih | writeUntil _ ih => exact ih
  | send h ih =>
    intro o ho
    rcases List.mem_cons.mp ho with rfl | ho
    · exact ⟨le_rfl, h.now_le⟩
    · exact ih o ho
  | receive x t hle _ _ h ih =>
    intro o ho
    rcases List.mem_cons.mp ho with rfl | ho
    · exact ⟨hle, h.now_le⟩
    · exact ⟨hle.trans (ih o ho).1, (ih o ho).2⟩

theorem of_bind {d : Dialogue α} {f : α → Dialogue β} {r : Option β}
    (h : Course (d.bind f) m os r m') :
    (r = none ∧ Course d m os none m') ∨
      ∃ a m₁ os₁ os₂, os = os₁ ++ os₂ ∧ Course d m os₁ (some a) m₁ ∧ Course (f a) m₁ os₂ r m' := by
  induction d generalizing m os with
  | finish a => exact .inr ⟨a, m, [], os, rfl, .finish a m, h⟩
  | stall => cases h; exact .inl ⟨rfl, .broken _ _⟩
  | clock next ih =>
    cases h with
    | broken => exact .inl ⟨rfl, .broken _ _⟩
    | clock h =>
      rcases ih _ h with ⟨hr, h'⟩ | ⟨a, m₁, os₁, os₂, rfl, h₁, h₂⟩
      · exact .inl ⟨hr, .clock h'⟩
      · exact .inr ⟨a, m₁, os₁, os₂, rfl, .clock h₁, h₂⟩
  | readUntil deadline next ih =>
    cases h with
    | broken => exact .inl ⟨rfl, .broken _ _⟩
    | readUntil h =>
      rcases ih h with ⟨hr, h'⟩ | ⟨a, m₁, os₁, os₂, rfl, h₁, h₂⟩
      · exact .inl ⟨hr, .readUntil h'⟩
      · exact .inr ⟨a, m₁, os₁, os₂, rfl, .readUntil h₁, h₂⟩
  | writeUntil deadline next ih =>
    cases h with
    | broken => exact .inl ⟨rfl, .broken _ _⟩
    | writeUntil h =>
      rcases ih h with ⟨hr, h'⟩ | ⟨a, m₁, os₁, os₂, rfl, h₁, h₂⟩
      · exact .inl ⟨hr, .writeUntil h'⟩
      · exact .inr ⟨a, m₁, os₁, os₂, rfl, .writeUntil h₁, h₂⟩
  | send target datagram copies next ih =>
    cases h with
    | broken => exact .inl ⟨rfl, .broken _ _⟩
    | send h =>
      rcases ih h with ⟨hr, h'⟩ | ⟨a, m₁, os₁, os₂, rfl, h₁, h₂⟩
      · exact .inl ⟨hr, .send h'⟩
      · exact .inr ⟨a, m₁, _ :: os₁, os₂, rfl, .send h₁, h₂⟩
  | receive next ih =>
    cases h with
    | broken => exact .inl ⟨rfl, .broken _ _⟩
    | receive x t h₀ h₁ h₂ h =>
      rcases ih x h with ⟨hr, h'⟩ | ⟨a, m₁, os₁, os₂, rfl, h₃, h₄⟩
      · exact .inl ⟨hr, .receive x t h₀ h₁ h₂ h'⟩
      · exact .inr ⟨a, m₁, _ :: os₁, os₂, rfl, .receive x t h₀ h₁ h₂ h₃, h₄⟩

theorem bind {d : Dialogue α} {f : α → Dialogue β} {m₁ : Moment} {os₁ os₂ : List Occurrence}
    {a : Option α} {r : Option β} (h : Course d m os₁ a m₁) :
    ∀ b, a = some b → Course (f b) m₁ os₂ r m' → Course (d.bind f) m (os₁ ++ os₂) r m' := by
  induction h with
  | broken => intro b hb; cases hb
  | finish a m => intro b hb h; cases hb; exact h
  | clock _ ih => exact fun b hb h => .clock (ih b hb h)
  | readUntil _ ih => exact fun b hb h => .readUntil (ih b hb h)
  | writeUntil _ ih => exact fun b hb h => .writeUntil (ih b hb h)
  | send _ ih => exact fun b hb h => .send (ih b hb h)
  | receive x t h₀ h₁ h₂ _ ih => exact fun b hb h => .receive x t h₀ h₁ h₂ (ih b hb h)

theorem bind_none {d : Dialogue α} (h : Course d m os none m') (f : α → Dialogue β) :
    Course (d.bind f) m os none m' := by
  generalize hr : (none : Option α) = r at h
  induction h with
  | broken => exact .broken _ _
  | finish => cases hr
  | clock _ ih => exact .clock (ih hr)
  | readUntil _ ih => exact .readUntil (ih hr)
  | writeUntil _ ih => exact .writeUntil (ih hr)
  | send _ ih => exact .send (ih hr)
  | receive x t h₀ h₁ h₂ _ ih => exact .receive x t h₀ h₁ h₂ (ih hr)

end Course

def Resumes (d : Dialogue α) (m : Moment) (d' : Dialogue α) (m' : Moment) : Prop :=
  ∃ before, ∀ os r m'', Course d' m' os r m'' → Course d m (before ++ os) r m''

namespace Resumes

variable {α : Type} {d d₁ d₂ : Dialogue α} {m m₁ m₂ : Moment}

theorem refl (d : Dialogue α) (m : Moment) : d.Resumes m d m :=
  ⟨[], fun _ _ _ h => h⟩

theorem trans (h : d.Resumes m d₁ m₁) (h' : d₁.Resumes m₁ d₂ m₂) : d.Resumes m d₂ m₂ := by
  obtain ⟨before, h⟩ := h
  obtain ⟨before', h'⟩ := h'
  refine ⟨before ++ before', fun os r m'' hc => ?_⟩
  rw [List.append_assoc]
  exact h _ _ _ (h' _ _ _ hc)

theorem course {a : α} (h : d.Resumes m (.finish a) m₁) : ∃ os, Course d m os (some a) m₁ := by
  obtain ⟨before, h⟩ := h
  exact ⟨_, h _ _ _ (.finish a m₁)⟩

end Resumes
end Dialogue
end ServerDiscovery.Client
