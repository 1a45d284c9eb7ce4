import Octez.Proof.SynchronisationHeuristic
import Octez.Proof.Inbox.Soundness
import Octez.Proof.Inbox.Completeness
import Octez.Proof.Slashing.Overdraw
import Octez.Proof.Dal.Pages
import Octez.Proof.RollupStorage.Consistency
import Octez.Proof.Game.WasmDissections
import Octez.Proof.Staking.Fairness
import Octez.Proof.Staking.Histories
import Octez.Proof.Etherlink.ForcedInclusion
import Octez.Proof.Etherlink.Promoted
import Octez.Proof.Etherlink.Retried
import Octez.Proof.Recycling
import Octez.Proof.Inbox.Histories
import Octez.Proof.Outbox
import Octez.Proof.Manager.FeeHints
import Octez.Proof.RiscV.Precise
import Octez.Proof.Token.Stakes
import Octez.Proof.Token.Activity
