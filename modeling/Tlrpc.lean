import Tlrpc.SequenceOnce
import Tlrpc.AcceptedOnce
import Tlrpc.ServerSequence
import Tlrpc.MutationsKept
import Tlrpc.LeaseFencing
import Tlrpc.PushOrder
import Tlrpc.InvokeAfter
import Tlrpc.PresenceRemoved
import Tlrpc.ConnectionIsolation
import Tlrpc.DroppedAnswer
import Tlrpc.PublishDeadlock
import Tlrpc.TemporaryKeys
import Tlrpc.HonestHandshake
import Tlrpc.LayerCombination
import Tlrpc.CryptoBytes
import Tlrpc.QuickAckRequests
import Tlrpc.TransportStack
import Tlrpc.MessageRoundTrip
import Tlrpc.PushExact
import Tlrpc.BatchesTransparent
import Tlrpc.GlobalRefusal
import Tlrpc.SuccessiveWriters
import Tlrpc.ResendControl
import Tlrpc.ParserTokens
import Tlrpc.Naming
import Tlrpc.GzipExpansion
import Tlrpc.TrailingData
import Tlrpc.ReliabilityRegistry
import Tlrpc.ParserTerminates
import Tlrpc.ObjectGraphs
import Tlrpc.Factorization
import Tlrpc.BareLayouts
