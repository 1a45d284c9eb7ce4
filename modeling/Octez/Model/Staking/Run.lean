import Octez.Model.Staking.Operations

/-! # Runs of the staking operations, cycle by cycle -/

namespace Octez.Staking
open Octez.Lib
variable {Pkh : Type} [DecidableEq Pkh]

/-- Besides the staking operations: payments between the accounts and to or from the infinite
accounts, rewards to the frozen deposits, and the denunciation of a delegate. -/
inductive Operation (Pkh : Type) where
  | stake (sender : Pkh) (amount : Tez)
  | unstake (sender : Pkh) (amount : Tez)
  | finalizeUnstake (sender : Pkh)
  | delegation (sender : Pkh) (delegate : Option Pkh)
  | payment (source destination : Option Pkh) (amount : Tez)
  | reward (staker : FrozenStaker Pkh) (amount : Tez)
  | denunciation (delegate : Pkh)

def Operation.apply (ctxt : Context Pkh) : Operation Pkh → Result Pkh (Context Pkh)
  | .stake sender amount => applyStake ctxt sender amount
  | .unstake sender amount => applyUnstake ctxt sender amount
  | .finalizeUnstake sender => applyFinalizeUnstake ctxt sender
  | .delegation sender delegate => applyDelegation ctxt sender delegate
  | .payment source destination amount =>
    transfer ctxt (source.elim .infiniteSource fun contract => .container (.contract contract))
      (destination.elim .infiniteSink fun contract => .container (.contract contract)) amount
  | .reward staker amount =>
    transfer ctxt .infiniteSource (.container (.frozenDeposits staker)) amount
  | .denunciation delegate =>
    .ok { ctxt with
      pendingDenunciations := Function.update ctxt.pendingDenunciations delegate true }

inductive Phase where
  | operations
  | denunciations
  | autostaking
deriving DecidableEq, Repr

structure State (Pkh : Type) where
  ctxt : Context Pkh
  phase : Phase

/-- What happens in a run. The denunciations that are delayed, the activity of the delegates and the
activation of adaptive issuance are decided elsewhere. -/
inductive Event (Pkh : Type) where
  | operation (operation : Operation Pkh)
  | endOfCycle
  | slash (slash : Slash Pkh)
  | slashed (pendingDenunciations inactive : Pkh → Bool)
  | autostake (delegate : Pkh) (amount : Tez)
  | autounstake (delegate : Pkh) (amount : Tez)
  | autofinalize (delegate : Pkh)
  | newCycle (adaptiveIssuanceEnable : Bool)

inductive Step : State Pkh → Event Pkh → State Pkh → Prop where
  | operation {ctxt after : Context Pkh} {operation : Operation Pkh}
      (applied : operation.apply ctxt = .ok after) :
      Step ⟨ctxt, .operations⟩ (.operation operation) ⟨after, .operations⟩
  | endOfCycle {ctxt : Context Pkh} :
      Step ⟨ctxt, .operations⟩ .endOfCycle ⟨ctxt, .denunciations⟩
  | slash {ctxt after : Context Pkh} {slash : Slash Pkh}
      (recent : slash.misbehaviourCycle = ctxt.cycle ∨ slash.misbehaviourCycle + 1 = ctxt.cycle)
      (applied : applyDenunciation ctxt slash = .ok after) :
      Step ⟨ctxt, .denunciations⟩ (.slash slash) ⟨after, .denunciations⟩
  | slashed {ctxt : Context Pkh} {pendingDenunciations inactive : Pkh → Bool} :
      Step ⟨ctxt, .denunciations⟩ (.slashed pendingDenunciations inactive)
        ⟨{ ctxt with pendingDenunciations, inactive }, .autostaking⟩
  | autostake {ctxt after : Context Pkh} {delegate : Pkh} {amount : Tez}
      (automated : stakingAutomation ctxt = .autoStaking)
      (applied : stake true ctxt (.atMost amount) delegate delegate = .ok after) :
      Step ⟨ctxt, .autostaking⟩ (.autostake delegate amount) ⟨after, .autostaking⟩
  | autounstake {ctxt after : Context Pkh} {delegate : Pkh} {amount : Tez}
      (automated : stakingAutomation ctxt = .autoStaking)
      (applied : requestUnstake true ctxt delegate delegate amount = .ok after) :
      Step ⟨ctxt, .autostaking⟩ (.autounstake delegate amount) ⟨after, .autostaking⟩
  | autofinalize {ctxt after : Context Pkh} {delegate : Pkh}
      (automated : stakingAutomation ctxt = .autoStaking)
      (applied : finalizeUnstake true ctxt delegate = .ok after) :
      Step ⟨ctxt, .autostaking⟩ (.autofinalize delegate) ⟨after, .autostaking⟩
  | newCycle {ctxt : Context Pkh} {adaptiveIssuanceEnable : Bool} :
      Step ⟨ctxt, .autostaking⟩ (.newCycle adaptiveIssuanceEnable)
        ⟨{ ctxt with cycle := ctxt.cycle + 1, adaptiveIssuanceEnable }, .operations⟩

/-- A run, with its events and the states in which they happen, the last one first. -/
inductive Runs (initial : State Pkh) : List (State Pkh × Event Pkh) → State Pkh → Prop where
  | start : Runs initial [] initial
  | step {trace : List (State Pkh × Event Pkh)} {before after : State Pkh} {event : Event Pkh}
      (run : Runs initial trace before) (step : Step before event after) :
      Runs initial ((before, event) :: trace) after

end Octez.Staking
