import Mathlib.Data.List.Basic

/-!
Clients that ask a server and go on from each reply. What a server may reply, and the state it
is then in, is a relation: a client may come to different ends in one state.
-/
namespace Client

inductive Client (Query Reply Out : Type) where
  | done (out : Out)
  | ask (query : Query) (next : Reply → Client Query Reply Out)

variable {State Query Reply Out : Type}

abbrev Server (State Query Reply : Type) := State → Query → Reply → State → Prop

/-- The queries and replies of a client from its start to its end. -/
inductive Exchange (serve : Server State Query Reply) :
    Client Query Reply Out → State → List (Query × Reply) → Out → State → Prop where
  | done (out : Out) (s : State) : Exchange serve (.done out) s [] out s
  | ask {query : Query} {next : Reply → Client Query Reply Out} {reply : Reply} {out : Out}
      {s t u : State} {trace : List (Query × Reply)} (served : serve s query reply t)
      (rest : Exchange serve (next reply) t trace out u) :
      Exchange serve (.ask query next) s ((query, reply) :: trace) out u

variable {serve : Server State Query Reply} {client : Client Query Reply Out}

/-- A client of a server that always replies comes to an end. -/
theorem exchange_exists (replies : ∀ s query, ∃ reply t, serve s query reply t)
    (client : Client Query Reply Out) (s : State) :
    ∃ trace out t, Exchange serve client s trace out t := by
  induction client generalizing s with
  | done out => exact ⟨[], out, s, .done out s⟩
  | ask query next ih =>
    obtain ⟨reply, t, served⟩ := replies s query
    obtain ⟨trace, out, u, rest⟩ := ih reply t
    exact ⟨(query, reply) :: trace, out, u, .ask served rest⟩

theorem exchange_invariant {inv : State → Prop}
    (kept : ∀ s query reply t, inv s → serve s query reply t → inv t) {s t : State}
    {trace : List (Query × Reply)} {out : Out} (ran : Exchange serve client s trace out t)
    (holds : inv s) : inv t := by
  induction ran with
  | done out s => exact holds
  | ask served rest ih => exact ih (kept _ _ _ _ holds served)

section Simulation
variable {State' : Type} {serve' : Server State' Query Reply}

/-- A server gives in related states every reply that the other does, and they stay related. -/
def Simulates (serve : Server State Query Reply) (serve' : Server State' Query Reply)
    (related : State → State' → Prop) : Prop :=
  ∀ s s' query reply t, related s s' → serve s query reply t →
    ∃ t', serve' s' query reply t' ∧ related t t'

variable {related : State → State' → Prop}

theorem exchange_simulated (simulates : Simulates serve serve' related) {s t : State}
    {trace : List (Query × Reply)} {out : Out} (ran : Exchange serve client s trace out t)
    {s' : State'} (start : related s s') :
    ∃ t', Exchange serve' client s' trace out t' ∧ related t t' := by
  induction ran generalizing s' with
  | done out s => exact ⟨s', .done out s', start⟩
  | ask served rest ih =>
    obtain ⟨t', served', next⟩ := simulates _ _ _ _ _ start served
    obtain ⟨u', rest', final⟩ := ih next
    exact ⟨u', .ask served' rest', final⟩

end Simulation
end Client
