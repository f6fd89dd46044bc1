import Mathlib.Data.List.Basic
import ServerDiscovery.Client.Session
import ServerDiscovery.Proofs.Client.Inquiry

/-! What holds of every course of a session's operation: of all that occurs in it, and of how it
ends if it does. Each building block of operations has its own rule, and sequencing joins two. -/

namespace ServerDiscovery.Client

open Dialogue

namespace Query

variable {α β : Type} {s s' : Session} {m m' : Moment}

section Dialogue

/-! The dialogues of composed operations. -/

theorem dialogue_bind (q : Query α) (f : α → Query β) (s : Session) :
    (q >>= f).dialogue s = (q.dialogue s).bind fun p =>
      match p.1 with
      | .ok a => (f a).dialogue p.2
      | .error e => .finish (.error e, p.2) := by
  show Dialogue.bind _ _ = _
  congr 1
  funext p
  obtain ⟨r, s'⟩ := p
  cases r <;> rfl

theorem dialogue_map (f : α → β) (q : Query α) (s : Session) :
    (f <$> q).dialogue s = (q.dialogue s).bind fun p => .finish (f <$> p.1, p.2) := by
  show Dialogue.bind _ _ = _
  congr 1
  funext p
  obtain ⟨r, s'⟩ := p
  cases r <;> rfl

theorem dialogue_ofExcept (x : Except Failure α) (s : Session) :
    (MonadExcept.ofExcept x : Query α).dialogue s = .finish (x, s) := by
  cases x <;> rfl

theorem dialogue_ofDialogue (d : Dialogue (Except Failure α)) (s : Session) :
    (ofDialogue d).dialogue s = d.bind fun x => .finish (x, s) := rfl

theorem dialogue_get_bind (f : Session → Query β) (s : Session) :
    (get >>= f).dialogue s = (f s).dialogue s := rfl

theorem dialogue_modifyGet_bind (g : Session → α × Session) (f : α → Query β) (s : Session) :
    (modifyGet g >>= f).dialogue s = (f (g s).1).dialogue (g s).2 := rfl

theorem dialogue_clock_bind (f : Time → Query β) (s : Session) :
    (clock >>= f).dialogue s = .clock fun now => (f now).dialogue s := rfl

theorem dialogue_heldToken_bind (e : Endpoint) (f : Option Token → Query β) (s : Session) :
    (heldToken e >>= f).dialogue s = .clock fun now =>
      (f (s.tokens.get e now).1).dialogue { s with tokens := (s.tokens.get e now).2 } := rfl

theorem dialogue_target_bind {target : SocketAddress} (ht : s.target = some target)
    (f : SocketAddress → Query β) : (Query.target >>= f).dialogue s = (f target).dialogue s := by
  rw [dialogue_bind, Query.target, dialogue_get_bind, ht]
  rfl

theorem dialogue_target_bind_of_none (ht : s.target = none) (f : SocketAddress → Query β) :
    (Query.target >>= f).dialogue s = .finish (.error .noTarget, s) := by
  rw [dialogue_bind, Query.target, dialogue_get_bind, ht]
  rfl

theorem course_bind {q : Query α} {f : α → Query β} {a : α} {m₁ : Moment} {os os' : List Occurrence}
    {r : Option (Except Failure β × Session)} (h : Course (q.dialogue s) m os (some (.ok a, s')) m₁)
    (h' : Course ((f a).dialogue s') m₁ os' r m') :
    Course ((q >>= f).dialogue s) m (os ++ os') r m' := by
  rw [dialogue_bind]
  exact h.bind _ rfl h'

theorem course_map {q : Query α} {r : Except Failure α} {os : List Occurrence} (f : α → β)
    (h : Course (q.dialogue s) m os (some (r, s')) m') :
    Course ((f <$> q).dialogue s) m os (some (f <$> r, s')) m' := by
  rw [dialogue_map]
  have hend := h.bind (f := fun p => .finish (f <$> p.1, p.2)) _ rfl (.finish _ _)
  rwa [List.append_nil] at hend

theorem course_map_none {q : Query α} {os : List Occurrence} (f : α → β)
    (h : Course (q.dialogue s) m os none m') : Course ((f <$> q).dialogue s) m os none m' := by
  rw [dialogue_map]
  exact h.bind_none _

end Dialogue

/-- In every course of `q` from here, `G` holds of what occurs and `Q` of the end. -/
def Always (q : Query α) (s : Session) (m : Moment) (G : List Occurrence → Prop)
    (Q : Except Failure α → Session → List Occurrence → Moment → Prop) : Prop :=
  ∀ os r m', Course (q.dialogue s) m os r m' → G os ∧ ∀ p, r = some p → Q p.1 p.2 os m'

variable {G G' : List Occurrence → Prop}

theorem Always.mono {q : Query α} {Q Q' : Except Failure α → Session → List Occurrence → Moment → Prop}
    (h : Always q s m G Q) (hG : ∀ os, G os → G' os)
    (hQ : ∀ r s' os m', G os → Q r s' os m' → Q' r s' os m') : Always q s m G' Q' := by
  intro os r m' hc
  obtain ⟨hg, hq⟩ := h os r m' hc
  exact ⟨hG os hg, fun p hp => hQ _ _ _ _ hg (hq p hp)⟩

theorem Always.guard {q : Query α} {Q : Except Failure α → Session → List Occurrence → Moment → Prop}
    (h : Always q s m G Q) (hG : ∀ os, G os → G' os) : Always q s m G' Q :=
  h.mono hG fun _ _ _ _ _ hq => hq

theorem Always.keep {q : Query α} {Q : Except Failure α → Session → List Occurrence → Moment → Prop}
    (h : Always q s m G Q) (hG : ∀ os, G os → G' os) :
    Always q s m G' fun r s' os m' => G os ∧ Q r s' os m' :=
  h.mono hG fun _ _ _ _ hg hq => ⟨hg, hq⟩

theorem Always.of_finish {q : Query α} {r : Except Failure α}
    {Q : Except Failure α → Session → List Occurrence → Moment → Prop}
    (hd : q.dialogue s = .finish (r, s')) (hG : G []) (hQ : Q r s' [] m) : Always q s m G Q := by
  intro os p m' hc
  rw [hd] at hc
  cases hc with
  | broken => exact ⟨hG, by simp⟩
  | finish => exact ⟨hG, by rintro p ⟨⟩; exact hQ⟩

theorem Always.bind {q : Query α} {f : α → Query β}
    {Q : Except Failure α → Session → List Occurrence → Moment → Prop}
    {Q' : Except Failure β → Session → List Occurrence → Moment → Prop}
    (h : Always q s m G Q)
    (hok : ∀ a s₁ os₁ m₁, G os₁ → Q (.ok a) s₁ os₁ m₁ → Always (f a) s₁ m₁
      (fun os => G (os₁ ++ os)) fun r s' os m' => Q' r s' (os₁ ++ os) m')
    (herr : ∀ e s₁ os₁ m₁, Q (.error e) s₁ os₁ m₁ → Q' (.error e) s₁ os₁ m₁) :
    Always (q >>= f) s m G Q' := by
  intro os r m' hc
  rw [dialogue_bind] at hc
  rcases hc.of_bind with ⟨hr, hbroken⟩ | ⟨⟨res, s₁⟩, m₁, os₁, os₂, rfl, hc₁, hc₂⟩
  · exact ⟨(h _ _ _ hbroken).1, by simp [hr]⟩
  · obtain ⟨hg, hq⟩ := h _ _ _ hc₁
    have hq := hq _ rfl
    cases res with
    | ok a => exact hok a s₁ os₁ m₁ hg hq os₂ r m' hc₂
    | error e =>
      cases hc₂ with
      | broken => exact ⟨by simpa using hg, by simp⟩
      | finish => exact ⟨by simpa using hg, by rintro p ⟨⟩; simpa using herr e s₁ os₁ _ hq⟩

theorem Always.nil {q : Query α} {Q : Except Failure α → Session → List Occurrence → Moment → Prop}
    (h : Always q s m G Q) : G [] := (h [] none m (.broken _ _)).1

theorem Always.pure {a : α} {Q : Except Failure α → Session → List Occurrence → Moment → Prop}
    (hG : G []) (hQ : Q (.ok a) s [] m) : Always (pure a) s m G Q :=
  .of_finish rfl hG hQ

theorem Always.ofExcept {x : Except Failure α}
    {Q : Except Failure α → Session → List Occurrence → Moment → Prop} (hG : G [])
    (hQ : Q x s [] m) : Always (MonadExcept.ofExcept x) s m G Q :=
  .of_finish (dialogue_ofExcept x s) hG hQ

theorem Always.map {q : Query α} {f : α → β}
    {Q : Except Failure β → Session → List Occurrence → Moment → Prop}
    (h : Always q s m G fun r s' os m' => Q (f <$> r) s' os m') : Always (f <$> q) s m G Q := by
  intro os r m' hc
  rw [dialogue_map] at hc
  rcases hc.of_bind with ⟨hr, hbroken⟩ | ⟨p, m₁, os₁, os₂, rfl, hc₁, hc₂⟩
  · exact ⟨(h _ _ _ hbroken).1, by simp [hr]⟩
  · obtain ⟨hg, hq⟩ := h _ _ _ hc₁
    cases hc₂ with
    | broken => exact ⟨by simpa using hg, by simp⟩
    | finish => exact ⟨by simpa using hg, by rintro p ⟨⟩; simpa using hq _ rfl⟩

theorem Always.get_bind {f : Session → Query β}
    {Q : Except Failure β → Session → List Occurrence → Moment → Prop} (h : Always (f s) s m G Q) :
    Always (get >>= f) s m G Q := h

theorem Always.modifyGet_bind {g : Session → α × Session} {f : α → Query β}
    {Q : Except Failure β → Session → List Occurrence → Moment → Prop}
    (h : Always (f (g s).1) (g s).2 m G Q) : Always (modifyGet g >>= f) s m G Q := h

theorem Always.target_bind {f : SocketAddress → Query β} {target : SocketAddress}
    {Q : Except Failure β → Session → List Occurrence → Moment → Prop}
    (ht : s.target = some target) (h : Always (f target) s m G Q) :
    Always (Query.target >>= f) s m G Q := by
  intro os r m' hc
  rw [dialogue_target_bind ht] at hc
  exact h os r m' hc

theorem Always.target_bind_of_none {f : SocketAddress → Query β}
    {Q : Except Failure β → Session → List Occurrence → Moment → Prop} (ht : s.target = none)
    (hG : G []) (hQ : Q (.error .noTarget) s [] m) : Always (Query.target >>= f) s m G Q :=
  .of_finish (dialogue_target_bind_of_none ht f) hG hQ

theorem Always.clock_bind {f : Time → Query β}
    {Q : Except Failure β → Session → List Occurrence → Moment → Prop}
    (h : Always (f m.now) s m G Q) : Always (clock >>= f) s m G Q := by
  intro os r m' hc
  rw [dialogue_clock_bind] at hc
  cases hc with
  | broken => exact ⟨h.nil, by simp⟩
  | clock hc => exact h os r m' hc

theorem Always.heldToken_bind {e : Endpoint} {f : Option Token → Query β}
    {Q : Except Failure β → Session → List Occurrence → Moment → Prop}
    (h : Always (f (s.tokens.get e m.now).1) { s with tokens := (s.tokens.get e m.now).2 } m G Q) :
    Always (heldToken e >>= f) s m G Q := by
  intro os r m' hc
  rw [dialogue_heldToken_bind] at hc
  cases hc with
  | broken => exact ⟨h.nil, by simp⟩
  | clock hc => exact h os r m' hc

theorem Always.ofDialogue {d : Dialogue (Except Failure α)}
    {Q : Except Failure α → Session → List Occurrence → Moment → Prop}
    (h : ∀ os r m', Course d m os r m' → G os ∧ ∀ x, r = some x → Q x s os m') :
    Always (ofDialogue d) s m G Q := by
  intro os r m' hc
  rcases hc.of_bind with ⟨hr, hbroken⟩ | ⟨x, m₁, os₁, os₂, rfl, hc₁, hc₂⟩
  · exact ⟨(h _ _ _ hbroken).1, by simp [hr]⟩
  · obtain ⟨hg, hq⟩ := h _ _ _ hc₁
    cases hc₂ with
    | broken => exact ⟨by simpa using hg, by simp⟩
    | finish => exact ⟨by simpa using hg, by rintro p ⟨⟩; simpa using hq x rfl⟩

theorem Always.inquire {patience : Nat} {target : SocketAddress} {request : Bytes}
    {accept : Accept α} {Q : Except Failure α → Session → List Occurrence → Moment → Prop}
    (h : ∀ os r m', Inquired s.settings.pacing target request accept m os r m' →
      G os ∧ ∀ x, r = some x → Q x s os m') :
    Always (inquire patience target request accept) s m G Q :=
  Always.ofDialogue fun os r m' hc => h os r m' (inquired_of_course hc)

end Query
end ServerDiscovery.Client
