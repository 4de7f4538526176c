import Switchboard.Metadata.Form
import Switchboard.Packet.Content
import Switchboard.Frame.Framing
import Switchboard.Frame.Stream
import Switchboard.Json.Shape
import Switchboard.Router
import Switchboard.Context
import Switchboard.Engine.Call
import Switchboard.Protobuf
import Switchboard.Settings
import Switchboard.Scenario.Bench
import Switchboard.Proofs.Engine.Move
import Switchboard.Proofs.Engine.Table
import Switchboard.Proofs.Engine.Steps
import Switchboard.Proofs.Engine.Handlers
import Switchboard.Proofs.Engine.Arrivals
import Switchboard.Proofs.Engine.Account
import Switchboard.Proofs.Engine.Polling
import Switchboard.Proofs.Engine.Standing
import Switchboard.Proofs.Engine.Coherent
import Switchboard.Proofs.Engine.Invariant
import Switchboard.Proofs.Engine.Telling
import Switchboard.Proofs.Engine.Sessions
import Switchboard.Proofs.Engine.Endings
import Switchboard.Proofs.Engine.Preservation
import Switchboard.Proofs.Engine.Numbers
import Switchboard.Proofs.Engine.Order
import Switchboard.Proofs.Engine.Attended
import Switchboard.Proofs.Engine.Ledger
import Switchboard.Proofs.Engine.Removals
import Switchboard.Proofs.Engine.Reachable
import Switchboard.Proofs.Correlation
import Switchboard.Proofs.CallOutcome
import Switchboard.Proofs.Callbacks
import Switchboard.Proofs.PoolBalance
import Switchboard.Proofs.Engine.Upkeep
import Switchboard.Proofs.Engine.Steady
import Switchboard.Proofs.Engine.Finality
import Switchboard.Proofs.Engine.Underway
import Switchboard.Proofs.PendingSessions
import Switchboard.Proofs.Teardown
import Switchboard.Proofs.FrameCourse
import Switchboard.Proofs.AbandonedCalls
import Switchboard.Proofs.Wire.FrameOctets
import Switchboard.Proofs.Wire.MetadataOctets
import Switchboard.Proofs.FrameRoundTrip
import Switchboard.Proofs.Wire.FrameTaking
import Switchboard.Proofs.FrameGrammar
import Switchboard.Proofs.FrameRecoding
import Switchboard.Proofs.StreamFraming
import Switchboard.Proofs.MetadataRoundTrip
import Switchboard.Proofs.MetadataGrammar
import Switchboard.Proofs.Engine.Stages
import Switchboard.Proofs.HandlerChain
import Switchboard.Proofs.Link.Speech
import Switchboard.Proofs.Link.Manners
import Switchboard.Proofs.Link.Acts
import Switchboard.Proofs.Link.Service
import Switchboard.Proofs.Link.Joint
import Switchboard.Proofs.Link.Answers
import Switchboard.Proofs.Link.Exchange
import Switchboard.Proofs.EndToEndCalls
import Switchboard.Proofs.RouteHistory
import Switchboard.Proofs.StreamCutting
import Switchboard.Proofs.RouteDelivery
import Switchboard.Proofs.Pools.Alike
import Switchboard.Proofs.Pools.Twins
import Switchboard.Proofs.PoolTransparency
import Switchboard.Proofs.PayloadHistory
import Switchboard.Proofs.Chains.Beats
import Switchboard.Proofs.Chains.Rounds
import Switchboard.Proofs.Chains.Deliveries
import Switchboard.Proofs.LoadCounter
import Switchboard.Proofs.Responses
import Switchboard.Proofs.SynthesizedReplies
import Switchboard.Proofs.FaultReports
import Switchboard.Proofs.FrameHistory
import Switchboard.Proofs.MetadataCutting
import Switchboard.Proofs.Wire.FormOctets
import Switchboard.Proofs.FormRoundTrip
import Switchboard.Proofs.PoolHistory
