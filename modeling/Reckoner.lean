import Reckoner.Main
import Reckoner.Proofs.Blank
import Reckoner.Proofs.Occurrence
import Reckoner.Proofs.Numeral
import Reckoner.Proofs.Recognition
import Reckoner.Proofs.Run
import Reckoner.Proofs.Derivation
import Reckoner.Proofs.Balance
import Reckoner.Proofs.Rendering
import Reckoner.Proofs.DepthLimit
import Reckoner.Proofs.TrialOrder
import Reckoner.Proofs.Failure
import Reckoner.Proofs.Replay
import Reckoner.Proofs.Flat
import Reckoner.Proofs.Padding
import Reckoner.Proofs.OperatorBlanks
import Reckoner.Proofs.Progress
import Reckoner.Proofs.Arrangement
import Reckoner.Proofs.Response
import Reckoner.Proofs.Rounding
import Reckoner.Proofs.ReadBack
import Reckoner.Proofs.Value
import Reckoner.Proofs.FloorQuotient
import Reckoner.Proofs.Nearest
import Reckoner.Proofs.FloorRemainder
import Reckoner.Proofs.WholeDivision
import Reckoner.Proofs.GroupedOperand
import Reckoner.Proofs.Layers
import Reckoner.Proofs.Stretch
import Reckoner.Proofs.SignedOperands
import Reckoner.Proofs.Literal
import Reckoner.Proofs.Quoted
import Reckoner.Proofs.LogLine
