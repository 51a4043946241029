import Backpressure.Main
import Backpressure.Run
import Backpressure.Runner.Program
import Backpressure.Settings.Database
import Backpressure.Settings.VariableFile
import Backpressure.Proofs.Serving
import Backpressure.Proofs.Accumulation
import Backpressure.Proofs.Raising
import Backpressure.Proofs.Invalidation
import Backpressure.Proofs.SingleFlight
import Backpressure.Proofs.Consistency
import Backpressure.Proofs.Independence
import Backpressure.Proofs.Lessons
import Backpressure.Proofs.Horizon
import Backpressure.Proofs.Addresses
import Backpressure.Proofs.Backends
import Backpressure.Proofs.Unknown
import Backpressure.Proofs.Pool
import Backpressure.Proofs.Eviction
import Backpressure.Proofs.Forgetting
import Backpressure.Proofs.Responses
import Backpressure.Proofs.Accounting
import Backpressure.Proofs.Separation
import Backpressure.Proofs.Crossing
import Backpressure.Proofs.Scores
import Backpressure.Proofs.Origin
import Backpressure.Proofs.Shrinkage
import Backpressure.Proofs.Refusals
import Backpressure.Proofs.Arrivals
import Backpressure.Proofs.Percentages
import Backpressure.Proofs.SizeGrammar
import Backpressure.Proofs.ThresholdRows
import Backpressure.Proofs.Attributes
import Backpressure.Proofs.Kinds
import Backpressure.Proofs.Countdown
import Backpressure.Proofs.Rounds
