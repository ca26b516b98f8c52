import NtnCho.EventSystem.Component
import NtnCho.Channel
import NtnCho.Measurement
import NtnCho.Procedure
import NtnCho.ServingTime
import NtnCho.Simulator
import NtnCho.SnrCho
import NtnCho.Ue
import NtnCho.UeComponent
import NtnCho.Pipeline
import NtnCho.Ledger
import NtnCho.Cache
import NtnCho.Tick
import NtnCho.Timeline
import NtnCho.Isolation
import NtnCho.Execution
import NtnCho.Markers
import NtnCho.Target
import NtnCho.Trigger
import NtnCho.Liveness
import NtnCho.ErrorRate
import NtnCho.Realisation
import NtnCho.CommonNumbers
import NtnCho.Serving
import NtnCho.Output
import NtnCho.Results
import NtnCho.Frames.AsOf
import NtnCho.Frames.Decimal
import NtnCho.Frames.Pandas
import NtnCho.Join
import NtnCho.Mobility
import NtnCho.Report
import NtnCho.SameChannel
import NtnCho.Comparison
import NtnCho.Transcript
import NtnCho.Reselection
import NtnCho.Frames.Groups
import NtnCho.Snapshot
import NtnCho.Dashboard
import NtnCho.Elevation
import NtnCho.Hysteresis
import NtnCho.Passes
import NtnCho.Decision.Closeness
import NtnCho.SdTopsis
import NtnCho.History
import NtnCho.Lookback
import NtnCho.Followup
import NtnCho.Prediction
import NtnCho.Network
import NtnCho.Pingpong
import NtnCho.StateFile
import NtnCho.Interpolation
import NtnCho.Geometry.Circle
import NtnCho.Longitude
import NtnCho.Malformed
import NtnCho.Scenario
import NtnCho.Discovery
import NtnCho.Loading
import NtnCho.Text.Regex
import NtnCho.Text.Python
import NtnCho.Text.Literal
import NtnCho.HandoverParser
import NtnCho.HandoverLog
import NtnCho.TriggerAnalysis
import NtnCho.TriggerInputs
import NtnCho.EventSystem.Agenda
import NtnCho.EventSystem.Boundary
import NtnCho.Geometry.Polyline
import NtnCho.TableLookup
import NtnCho.Settlement
import NtnCho.DebugReaders
import NtnCho.UdpExample
import NtnCho.DeliveryRatio
import NtnCho.Heap.Order
import NtnCho.HeapScheduler
import NtnCho.CalendarScheduler
import NtnCho.DefaultSimulator
import NtnCho.SimulationRun
import NtnCho.Pacing
import NtnCho.FlowReport
