import ServerDiscovery.Proofs.Address.Canonical
import ServerDiscovery.Proofs.Address.Endpoint
import ServerDiscovery.Proofs.Client.Rounds
import ServerDiscovery.Proofs.Client.Timeliness

/-! What comes from the target of an inquiry is judged, whichever form the address of the target has
been given on the way: a socket rewrites it for its family, the remote answers from what it is then,
and an endpoint is the same for all these forms. -/

namespace ServerDiscovery.Client

/-- A datagram from a source is judged by what is acceptable; it is the last one that the round hears,
and what it means is what the inquiry ends in. -/
def Round.Judges {σ α : Type} (r : Round σ) (accept : Accept α) (source : SocketAddress)
    (result : Except Failure α) : Prop :=
  ∀ before time payload after, r.heard = before ++ (time, .datagram payload source) :: after →
    after = [] ∧
      (r.inquiry.judge accept time (.datagram payload source) =
        match accept time payload source with
        | .ok a => .settle (.ok a)
        | .error _ => .reject) ∧
      ∀ a, accept time payload source = .ok a → result = .ok a

namespace Inquiry

variable {σ α : Type} {x : Inquiry} {accept : Accept α} {source : SocketAddress} {time : Time}
  {payload : Bytes}

theorem isFromTarget_iff (x : Inquiry) (source : SocketAddress) (family : SocketAddress.Family) :
    x.isFromTarget source = true ↔
      source.port = (x.target.forFamily family).port ∧
        source.ip.octets = (x.target.forFamily family).ip.octets := by
  rw [SocketAddress.port_forFamily, SocketAddress.octets_forFamily, ← Endpoint.ofSocket_eq_iff]
  exact decide_eq_true_iff

variable [Transport σ] {k k' : σ} {result : Except Failure α}

theorem Listens.ends_of_isFromTarget {heard before after : List (Time × Reception)}
    {verdict : Verdict α} (h : Listens x accept k heard verdict k')
    (hheard : heard = before ++ (time, .datagram payload source) :: after)
    (hfrom : x.isFromTarget source = true) :
    after = [] ∧ x.judge accept time (.datagram payload source) = verdict := by
  induction h generalizing before with
  | ends hreceive hjudge _ =>
    obtain ⟨rfl, ⟨rfl, rfl⟩, rfl⟩ : before = [] ∧ _ ∧ after = [] := by
      simpa [List.cons_eq_append_iff] using hheard
    exact ⟨rfl, hjudge⟩
  | ignores hreceive hjudge _ ih =>
    cases before with
    | nil =>
      rw [List.nil_append, List.cons.injEq] at hheard
      cases hheard.1
      rw [judge_of_isFromTarget hfrom] at hjudge
      split at hjudge <;> cases hjudge
    | cons p before =>
      rw [List.cons_append, List.cons.injEq] at hheard
      exact ih hheard.2

theorem Listens.judges_of_isFromTarget {r : Round σ} {verdict : Verdict α}
    (h : Listens r.inquiry accept k r.heard verdict k')
    (hresult : ∀ a, verdict = .settle (.ok a) → result = .ok a)
    (hfrom : r.inquiry.isFromTarget source = true) : r.Judges accept source result := by
  intro before time payload after hheard
  obtain ⟨hafter, hjudge⟩ := h.ends_of_isFromTarget hheard hfrom
  refine ⟨hafter, judge_of_isFromTarget hfrom, fun a haccept => hresult a ?_⟩
  rw [← hjudge, judge_datagram hfrom haccept]

theorem Rounds.judges_of_isFromTarget {rounds : List (Round σ)}
    (h : Rounds accept x k rounds result k') {r : Round σ} (hr : r ∈ rounds)
    (hfrom : x.isFromTarget source = true) : r.Judges accept source result := by
  induction h with
  | spent => cases hr
  | settled _ hlistens =>
    obtain rfl := List.mem_singleton.mp hr
    refine hlistens.judges_of_isFromTarget (fun a hsettle => ?_) hfrom
    cases hsettle
    rfl
  | failed _ hlistens _ ih =>
    rcases List.mem_cons.mp hr with rfl | hr
    · -- A round that fails has heard nothing acceptable.
      exact hlistens.judges_of_isFromTarget nofun hfrom
    · exact ih hr hfrom

end Inquiry

/-- All that gives an address another form agrees on what is one endpoint: ports and the sixteen bytes
of addresses decide, flow labels and scopes do not. An endpoint is its own canonical form, is never
written as a mapped address, and is told by its entry. A socket of whatever family sends to the
endpoint of the target, and an inquiry takes for replies what comes from there and nothing else. -/
theorem forms_agree :
    (∀ a b : SocketAddress, Endpoint.ofSocket a = Endpoint.ofSocket b ↔
      a.port = b.port ∧ a.ip.octets = b.ip.octets) ∧
    (∀ a : SocketAddress, Endpoint.ofSocket (Endpoint.ofSocket a).toSocket = Endpoint.ofSocket a) ∧
    (∀ (a : SocketAddress) (ip : Ip6), (Endpoint.ofSocket a).ip = .v6 ip → ¬ip.IsMapped) ∧
    (∀ d e : Endpoint, d.toEntry = e.toEntry ↔ d = e) ∧
    (∀ (family : SocketAddress.Family) (target : SocketAddress),
      Endpoint.ofSocket (target.forFamily family) = Endpoint.ofSocket target) ∧
    (∀ (x : Inquiry) (source : SocketAddress) (family : SocketAddress.Family),
      x.isFromTarget source = true ↔
        source.port = (x.target.forFamily family).port ∧
          source.ip.octets = (x.target.forFamily family).ip.octets) ∧
    ∀ {σ α : Type} [Transport σ] (x : Inquiry) (accept : Accept α) (k k' : σ)
      (rounds : List (Round σ)) (result : Except Failure α),
      Inquiry.Rounds accept x k rounds result k' → ∀ r ∈ rounds, ∀ family,
        r.Judges accept (x.target.forFamily family) result := by
  refine ⟨fun _ _ => Endpoint.ofSocket_eq_iff, fun a => Endpoint.ofSocket_toSocket _,
    fun a _ => (Endpoint.ofSocket a).not_isMapped, fun _ _ => Endpoint.toEntry_inj,
    Endpoint.ofSocket_forFamily, Inquiry.isFromTarget_iff, ?_⟩
  intro σ α _ x accept k k' rounds result h r hr family
  exact h.judges_of_isFromTarget hr ((x.isFromTarget_iff _ family).mpr ⟨rfl, rfl⟩)

section Mapped

open Simulation

def mappedScript : Script :=
  .new [⟨5, 0, .datagram [1] roughStranger⟩,
    ⟨9, 0, .datagram [1] (roughServer.forFamily .ip6)⟩] [] none

def mappedRound : Round Script :=
  ⟨.start roughServer [7] (.uniform 100 35) 0, mappedScript,
    [(5, .datagram [1] roughStranger), (9, .datagram [1] (roughServer.forFamily .ip6))]⟩

theorem forms_agree_mapped : ∃ result k',
    Inquiry.Rounds acceptsOne mappedRound.inquiry mappedScript [mappedRound] result k' ∧
      result = .ok [1] ∧
      (Endpoint.ofIp (.v6 ⟨0x2001, 0xdb8, 0, 0, 0, 0, 0, 1⟩) 8303).ip =
        .v6 ⟨0x2001, 0xdb8, 0, 0, 0, 0, 0, 1⟩ ∧
      ¬Ip6.IsMapped ⟨0x2001, 0xdb8, 0, 0, 0, 0, 0, 1⟩ := by
  obtain ⟨-, -, hmapped, -, -, -, hjudges⟩ := @forms_agree
  have hlisten : ∃ result k', Inquiry.Listens mappedRound.inquiry acceptsOne
      (mappedRound.inquiry.launch mappedScript) mappedRound.heard (.settle result) k' :=
    ⟨_, _, .ignores rfl rfl (.ends rfl rfl nofun)⟩
  obtain ⟨result, k', hlistens⟩ := hlisten
  have hrounds : Inquiry.Rounds acceptsOne mappedRound.inquiry mappedScript [mappedRound] result k' :=
    .settled (by decide) hlistens
  have hheard : mappedRound.heard = [(5, .datagram [1] roughStranger)] ++
    (9, .datagram [1] (roughServer.forFamily .ip6)) :: [] := rfl
  have hround := hjudges _ _ _ _ _ _ hrounds mappedRound (List.mem_singleton_self _) .ip6
    _ _ _ _ hheard
  exact ⟨result, k', hrounds, hround.2.2 [1] rfl, rfl,
    hmapped (.v6 ⟨0x2001, 0xdb8, 0, 0, 0, 0, 0, 1⟩ 8303 7 3) _ rfl⟩

end Mapped
end ServerDiscovery.Client
