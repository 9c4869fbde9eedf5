import Reckoner.Inspect
import Reckoner.Main
import Reckoner.Proofs.Dividing
import Reckoner.Proofs.Literals
import Reckoner.Proofs.Grammar
import Reckoner.Proofs.Evaluation
import Reckoner.Proofs.Repertoires
import Reckoner.Proofs.Acceptance
import Reckoner.Proofs.Naming
import Reckoner.Proofs.Unclosed
import Reckoner.Proofs.Typing
import Reckoner.Proofs.NumberText
import Reckoner.Proofs.Formatting
import Reckoner.Proofs.Wire
import Reckoner.Proofs.Crashes
import Reckoner.Proofs.Filling
import Reckoner.Proofs.Readouts
import Reckoner.Proofs.Guards
import Reckoner.Proofs.Excluding
import Reckoner.Proofs.PrimeFunctions
import Reckoner.Proofs.Splitting
import Reckoner.Proofs.Sums
import Reckoner.Proofs.Schemas
