import Allowance.Main
import Allowance.Proofs.Document.Failures
import Allowance.Proofs.Document.Resource
import Allowance.Proofs.Document.Text
import Allowance.Proofs.Document.Validity
import Allowance.Proofs.Ether.Dollars
import Allowance.Proofs.Ether.Text
import Allowance.Proofs.Evaluation.Argument
import Allowance.Proofs.Evaluation.Extension
import Allowance.Proofs.Evaluation.Rearrangement
import Allowance.Proofs.Recased.Session
import Allowance.Proofs.Registry.Atomicity
import Allowance.Proofs.Registry.Drafts
import Allowance.Proofs.Registry.Isolation
import Allowance.Proofs.Registry.Links
import Allowance.Proofs.Registry.ReadBack
import Allowance.Proofs.Registry.Shelves
import Allowance.Proofs.Registry.Toggles
import Allowance.Proofs.Replay
import Allowance.Proofs.Service.Creation
import Allowance.Proofs.Service.Failures
import Allowance.Proofs.Settings.Limit
import Allowance.Proofs.Settings.Refusal
import Allowance.Proofs.Settings.Summary
import Allowance.Proofs.World.History
import Allowance.Replay
