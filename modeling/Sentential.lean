import Sentential.Main
import Sentential.Proofs.Meaning
import Sentential.Proofs.Fixpoint
import Sentential.Proofs.NormalForm
import Sentential.Proofs.Effort
import Sentential.Proofs.RoundTrip
import Sentential.Proofs.Failures
import Sentential.Proofs.Tables
import Sentential.Proofs.Reentry
import Sentential.Proofs.Resumption
import Sentential.Proofs.LineByLine
import Sentential.Proofs.LongestMatch
import Sentential.Proofs.Reuse
import Sentential.Proofs.Climbing
import Sentential.Proofs.Renaming
import Sentential.Proofs.Chains
import Sentential.Proofs.Size
import Sentential.Proofs.Equivalences
import Sentential.Proofs.Tiling
import Sentential.Proofs.Columns
import Sentential.Proofs.Spans
import Sentential.Proofs.Reports
import Sentential.Proofs.Respacing
import Sentential.Proofs.Nesting
import Sentential.Proofs.Registration
import Sentential.Proofs.Grid
import Sentential.Proofs.Colours
import Sentential.Proofs.Removal
import Sentential.Proofs.Prompts
import Sentential.Proofs.Arguments
import Sentential.Proofs.ExitCode
