import SorobanProxy.Library.OrderTree
import SorobanProxy.Library.AssocMap
import SorobanProxy.Library.Outcomes
import SorobanProxy.Library.Numeral
import SorobanProxy.Library.Hex
import SorobanProxy.Library.Interaction
import SorobanProxy.Json
import SorobanProxy.Text
import SorobanProxy.Xdr
import SorobanProxy.Spec
import SorobanProxy.Crates
import SorobanProxy.Scval
import SorobanProxy.Conversion
import SorobanProxy.Render
import SorobanProxy.Inhabits
import SorobanProxy.Integers
import SorobanProxy.Soundness
import SorobanProxy.Completeness
import SorobanProxy.Injective
import SorobanProxy.Legal
import SorobanProxy.Escape
import SorobanProxy.Transaction
import SorobanProxy.Rpc
import SorobanProxy.TxBuild
import SorobanProxy.ContractSource
import SorobanProxy.State
import SorobanProxy.Handlers
import SorobanProxy.Call
import SorobanProxy.Pipeline
import SorobanProxy.Reference
import SorobanProxy.Envelope
import SorobanProxy.Submission
import SorobanProxy.Server
import SorobanProxy.Classification
import SorobanProxy.Lifetime
import SorobanProxy.Readback
import SorobanProxy.Scalars
import SorobanProxy.Passage
import SorobanProxy.Reverse
import SorobanProxy.Termination
import SorobanProxy.Upstream
import SorobanProxy.InFlight
import SorobanProxy.Secrecy
import SorobanProxy.Normalization
import SorobanProxy.CacheRace
import SorobanProxy.Words
import SorobanProxy.Arguments
import SorobanProxy.ByteStrings
import SorobanProxy.Cases
import SorobanProxy.Legibility
import SorobanProxy.Interface
import SorobanProxy.Authorization
import SorobanProxy.Sequence
import SorobanProxy.Library.Known
import SorobanProxy.Service
import SorobanProxy.Library.Budget
import SorobanProxy.Planning
import SorobanProxy.Progress
import SorobanProxy.Accounting
import SorobanProxy.Equivalence
import SorobanProxy.Publication
import SorobanProxy.Library.Implementation
import SorobanProxy.Wire
import SorobanProxy.Startup
import SorobanProxy.Statuses
import SorobanProxy.Capability
import SorobanProxy.EndToEnd
import SorobanProxy.Configuration
