import WireMirage.Library.Networks

/-!
The egress policy: which of the addresses that a host resolves to a callback may be
sent to.
-/
namespace WireMirage
open Networks

def specialUse : List IpNet :=
  [.v4 0x00000000 8, .v4 0x0a000000 8, .v4 0x64400000 10, .v4 0x7f000000 8, .v4 0xa9fe0000 16,
    .v4 0xac100000 12, .v4 0xc0000000 24, .v4 0xc0a80000 16, .v4 0xc6120000 15, .v4 0xe0000000 4,
    .v4 0xf0000000 4,
    .v6 0x00000000000000000000000000000001 128, .v6 0x00000000000000000000000000000000 128,
    .v6 0xfc000000000000000000000000000000 7, .v6 0xfe800000000000000000000000000000 10,
    .v6 0xff000000000000000000000000000000 8]

inductive EgressDecision where
  | allow
  | deny (reason : String)
  deriving DecidableEq, Repr

structure EgressPolicy where
  enabled : Bool
  allow : List IpNet
  deny : List IpNet
  deriving DecidableEq, Repr

def Egress.normalize : IpAddr → IpAddr
  | .v6 bits =>
    match toIpv4Mapped bits with
    | some embedded => .v4 embedded
    | none => .v6 bits
  | v4 => v4

section Policy
variable (contains : IpNet → IpAddr → Bool) (policy : EgressPolicy)

def EgressPolicy.evaluate (ip : IpAddr) : EgressDecision :=
  if ¬ policy.enabled then
    .deny "egress is disabled (set WM_EGRESS=on to enable callouts)"
  else if policy.deny.any (fun net => contains net (Egress.normalize ip)) then
    .deny "address matches WM_EGRESS_DENY"
  else if policy.allow.any (fun net => contains net (Egress.normalize ip)) then .allow
  else if specialUse.any (fun net => contains net (Egress.normalize ip)) then
    .deny "special-use / non-public address (blocked by default)"
  else .allow

def EgressPolicy.checkEach : List IpAddr → EgressDecision
  | [] => .allow
  | ip :: rest =>
    match policy.evaluate contains ip with
    | .allow => checkEach rest
    | .deny reason => .deny reason

def EgressPolicy.checkResolved (ips : List IpAddr) : EgressDecision :=
  if ips = [] then .deny "host did not resolve to any address" else policy.checkEach contains ips

end Policy

/-- The addresses that the client of a callback is pinned to, when it may be sent at all. -/
structure SocketAddr where
  ip : IpAddr
  port : Nat
  deriving DecidableEq, Repr

structure EgressDenied where
  reason : String
  resolved : List IpAddr
  deriving DecidableEq, Repr

def vetted (contains : IpNet → IpAddr → Bool) (egress : EgressPolicy)
    (socketAddrs : List SocketAddr) : Except EgressDenied (List SocketAddr) :=
  let ips := socketAddrs.map SocketAddr.ip
  match egress.checkResolved contains ips with
  | .deny reason => .error ⟨reason, ips⟩
  | .allow => .ok socketAddrs

/-! What a policy lets through -/

/-- Judged by its normalised form: as it stands a deny net can hold it only if it is mapped. -/
structure EgressPolicy.Permits (policy : EgressPolicy) (ip : IpAddr) : Prop where
  undenied : ∀ net ∈ policy.deny, ¬ net.Holds (Egress.normalize ip)
  held : ∀ net ∈ policy.deny, net.Holds ip → ip.Mapped
  admitted : (∃ net ∈ policy.allow, net.Holds (Egress.normalize ip)) ∨
    ∀ net ∈ specialUse, ¬ net.Holds ip ∧ ¬ net.Holds (Egress.normalize ip)

theorem normalize_unmapped {ip : IpAddr} (raw : ¬ ip.Mapped) : Egress.normalize ip = ip := by
  cases ip with
  | v4 bits => rfl
  | v6 bits =>
    have none : toIpv4Mapped bits = none := by
      simpa [IpAddr.Mapped] using raw
    simp only [Egress.normalize, none]

/-- No special-use range of the sixth version holds a mapped address as it stands. -/
theorem mapped_not_special {ip : IpAddr} (mapped : ip.Mapped) :
    ∀ net ∈ specialUse, ¬ net.Holds ip := by
  cases ip with
  | v4 bits => exact mapped.elim
  | v6 bits =>
    have first : bits.getMsbD 0 = false := mapped_bits mapped (by omega)
    have later : bits.getMsbD 80 = true := mapped_bits mapped (by omega)
    intro net member holds
    simp only [specialUse, List.mem_cons, List.not_mem_nil, or_false] at member
    rcases member with rfl | rfl | rfl | rfl | rfl | rfl | rfl | rfl | rfl | rfl | rfl | rfl |
      rfl | rfl | rfl | rfl
    all_goals first
      | exact holds.elim
      | exact absurd ((holds 80 (by decide)).trans later) (by decide)
      | exact absurd ((holds 0 (by decide)).trans first) (by decide)

section Checked
variable {contains : IpNet → IpAddr → Bool}
  (decides : ∀ net ip, contains net ip = true ↔ net.Holds ip) (policy : EgressPolicy)
include decides

theorem evaluate_allow_iff (ip : IpAddr) :
    policy.evaluate contains ip = .allow ↔ policy.enabled = true ∧ policy.Permits ip := by
  have special : (∀ net ∈ specialUse, ¬ net.Holds (Egress.normalize ip)) ↔
      ∀ net ∈ specialUse, ¬ net.Holds ip ∧ ¬ net.Holds (Egress.normalize ip) := by
    constructor
    · intro normal net member
      refine ⟨?_, normal net member⟩
      by_cases mapped : ip.Mapped
      · exact mapped_not_special mapped net member
      · have here := normal net member
        rwa [normalize_unmapped mapped] at here
    · intro both net member
      exact (both net member).2
  have found : ∀ nets : List IpNet, nets.any
      (fun net => contains net (Egress.normalize ip)) = true ↔
      ∃ net ∈ nets, net.Holds (Egress.normalize ip) := by
    intro nets
    simp only [List.any_eq_true, decides]
  unfold EgressPolicy.evaluate
  cases on : policy.enabled with
  | false =>
    simp
  | true =>
    rw [if_neg (by simp)]
    by_cases denied : policy.deny.any (fun net => contains net (Egress.normalize ip)) = true
    · rw [if_pos denied]
      obtain ⟨net, member, holds⟩ := (found policy.deny).mp denied
      constructor
      · intro wrong
        cases wrong
      · rintro ⟨_, permits⟩
        exact absurd holds (permits.undenied net member)
    · rw [if_neg denied]
      have undenied : ∀ net ∈ policy.deny, ¬ net.Holds (Egress.normalize ip) := by
        intro net member holds
        exact denied ((found policy.deny).mpr ⟨net, member, holds⟩)
      have raw : ∀ net ∈ policy.deny, net.Holds ip → ip.Mapped := by
        intro net member holds
        by_cases mapped : ip.Mapped
        · exact mapped
        · have here := undenied net member
          rw [normalize_unmapped mapped] at here
          exact absurd holds here
      by_cases allowed : policy.allow.any (fun net => contains net (Egress.normalize ip)) = true
      · rw [if_pos allowed]
        have held := (found policy.allow).mp allowed
        exact ⟨fun _ => ⟨rfl, undenied, raw, .inl held⟩, fun _ => rfl⟩
      · rw [if_neg allowed]
        by_cases blocked : specialUse.any (fun net => contains net (Egress.normalize ip)) = true
        · rw [if_pos blocked]
          constructor
          · intro wrong
            cases wrong
          · rintro ⟨_, permits⟩
            obtain ⟨net, member, holds⟩ := (found specialUse).mp blocked
            rcases permits.admitted with held | general
            · exact absurd ((found policy.allow).mpr held) allowed
            · exact absurd holds (general net member).2
        · rw [if_neg blocked]
          have general : ∀ net ∈ specialUse, ¬ net.Holds (Egress.normalize ip) := by
            intro net member holds
            exact blocked ((found specialUse).mpr ⟨net, member, holds⟩)
          exact ⟨fun _ => ⟨rfl, undenied, raw, .inr (special.mp general)⟩, fun _ => rfl⟩

theorem checkEach_allow_iff (ips : List IpAddr) :
    policy.checkEach contains ips = .allow ↔
      ∀ ip ∈ ips, policy.enabled = true ∧ policy.Permits ip := by
  induction ips with
  | nil => simp [EgressPolicy.checkEach]
  | cons ip rest ih =>
    rw [List.forall_mem_cons, ← evaluate_allow_iff decides, ← ih, EgressPolicy.checkEach]
    cases policy.evaluate contains ip with
    | allow => simp
    | deny reason => simp

theorem checkResolved_allow_iff (ips : List IpAddr) :
    policy.checkResolved contains ips = .allow ↔
      ips ≠ [] ∧ ∀ ip ∈ ips, policy.enabled = true ∧ policy.Permits ip := by
  unfold EgressPolicy.checkResolved
  by_cases none : ips = []
  · simp [none]
  · rw [if_neg none, checkEach_allow_iff decides]
    exact ⟨fun all => ⟨none, all⟩, And.right⟩

/-- The client of a callback is pinned to what the policy permits. -/
theorem vetted_permitted {resolved pinned : List SocketAddr}
    (vets : vetted contains policy resolved = .ok pinned) :
    pinned ≠ [] ∧ ∀ target ∈ pinned, policy.Permits target.ip := by
  simp only [vetted] at vets
  split at vets
  · cases vets
  · rename_i decision
    cases vets
    obtain ⟨some, permits⟩ := (checkResolved_allow_iff decides policy _).mp decision
    refine ⟨by simpa using some, ?_⟩
    intro target member
    exact (permits target.ip (List.mem_map_of_mem member)).2

/-- A call goes out exactly when egress is on, something was resolved, and the policy permits
    every address of it. -/
theorem egress_airtight (ips : List IpAddr) :
    policy.checkResolved contains ips = .allow ↔
      policy.enabled = true ∧ ips ≠ [] ∧ ∀ ip ∈ ips, policy.Permits ip := by
  rw [checkResolved_allow_iff decides]
  constructor
  · rintro ⟨some, all⟩
    obtain ⟨ip, member⟩ := List.exists_mem_of_ne_nil ips some
    exact ⟨(all ip member).1, some, fun ip member => (all ip member).2⟩
  · rintro ⟨on, some, permits⟩
    exact ⟨some, fun ip member => ⟨on, permits ip member⟩⟩

end Checked

theorem egress_airtight_internal :
    (EgressPolicy.mk true [.v4 0x0a010000 16] [.v6 0 0]).checkResolved
        (fun net ip => decide (net.Holds ip)) [.v4 0x0a010203] = .allow ↔
      (EgressPolicy.mk true [.v4 0x0a010000 16] [.v6 0 0]).enabled = true ∧
        [IpAddr.v4 0x0a010203] ≠ [] ∧ ∀ ip ∈ [IpAddr.v4 0x0a010203],
          (EgressPolicy.mk true [.v4 0x0a010000 16] [.v6 0 0]).Permits ip :=
  egress_airtight (fun _ _ => decide_eq_true_iff) _ _

/-- As it stands no address lies in a deny net, nor does it in its normalised form. -/
structure EgressPolicy.Airtight (policy : EgressPolicy) (ips : List IpAddr) : Prop where
  resolved : ips ≠ []
  undenied : ∀ ip ∈ ips, ∀ net ∈ policy.deny, ¬ net.Holds ip ∧ ¬ net.Holds (Egress.normalize ip)
  admitted : ∀ ip ∈ ips, (∃ net ∈ policy.allow, net.Holds ip ∨ net.Holds (Egress.normalize ip)) ∨
    ∀ net ∈ specialUse, ¬ net.Holds ip ∧ ¬ net.Holds (Egress.normalize ip)

/-- All of the sixth version is denied, and `::ffff:1.1.1.1` is called. -/
theorem mapped_address_called :
    ∃ policy ips, EgressPolicy.checkResolved (fun net ip => decide (net.Holds ip)) policy ips =
      .allow ∧ ¬ policy.Airtight ips := by
  refine ⟨⟨true, [], [.v6 0 0]⟩, [.v6 0x00000000000000000000ffff01010101], by decide +kernel, ?_⟩
  intro airtight
  have outside := airtight.undenied _ List.mem_cons_self (.v6 0 0) List.mem_cons_self
  exact outside.1 (by decide +kernel)

end WireMirage
