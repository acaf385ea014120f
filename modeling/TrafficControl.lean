import TrafficControl.Breaker.Registry
import TrafficControl.Engine.Admission
import TrafficControl.Engine.Delivery
import TrafficControl.Json.Reader
import TrafficControl.Json.Writer
import TrafficControl.Limit.Call
import TrafficControl.Limit.Registry
import TrafficControl.Policy.Store
import TrafficControl.Proofs.Breaker.Room
import TrafficControl.Proofs.Breaker.Tripping
import TrafficControl.Proofs.Engine.Availability
import TrafficControl.Proofs.Engine.Disturbance
import TrafficControl.Proofs.Engine.Endings
import TrafficControl.Proofs.Engine.Hop
import TrafficControl.Proofs.Engine.Isolation
import TrafficControl.Proofs.Engine.Orphans
import TrafficControl.Proofs.Engine.Renewal
import TrafficControl.Proofs.Engine.Trials
import TrafficControl.Proofs.Limit.Rate
import TrafficControl.Proofs.Limit.Trace
import TrafficControl.Proofs.Policy.Format
import TrafficControl.Proofs.Policy.Hosts
import TrafficControl.Proofs.Policy.Indexes
import TrafficControl.Proofs.Policy.Owners
import TrafficControl.Proofs.Policy.Redelivery
import TrafficControl.Proofs.Policy.Slots
import TrafficControl.Proofs.Routing.ActiveRule
import TrafficControl.Proofs.Routing.Agreement
import TrafficControl.Proofs.Routing.Lanes
import TrafficControl.Proofs.Routing.Soundness
import TrafficControl.Proofs.Routing.Turns
import TrafficControl.Proofs.Routing.Weights
import TrafficControl.Proofs.Settings.Leaves
import TrafficControl.Routing.Inbound
import TrafficControl.Routing.Outbound
import TrafficControl.Routing.Report
