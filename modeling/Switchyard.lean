import Switchyard.App
import Switchyard.Breaker
import Switchyard.Context
import Switchyard.Decimal.Layout
import Switchyard.Decimal.Shortest
import Switchyard.Dispatch.Chain
import Switchyard.Dispatch.Mediator
import Switchyard.Dispatch.Registry
import Switchyard.Dispatch.Request
import Switchyard.Entity
import Switchyard.Error
import Switchyard.Events.Bus
import Switchyard.Events.Metadata
import Switchyard.Json
import Switchyard.Json.Decode
import Switchyard.Json.Document
import Switchyard.Json.Parser
import Switchyard.Json.Printer
import Switchyard.Log
import Switchyard.Log.Rendering
import Switchyard.Log.Settings
import Switchyard.Moment
import Switchyard.Outcome
import Switchyard.Rehearsal.Act
import Switchyard.Rehearsal.Circuits
import Switchyard.Rehearsal.Dispatching
import Switchyard.Rehearsal.Frame
import Switchyard.Rehearsal.Machine
import Switchyard.Rehearsal.Publishing
import Switchyard.Rehearsal.Reply
import Switchyard.Rehearsal.Run
import Switchyard.Rehearsal.Script
import Switchyard.Rehearsal.Setup
import Switchyard.Rehearsal.Steps
import Switchyard.Rehearsal.Storage
import Switchyard.Rehearsal.World
import Switchyard.Scope
import Switchyard.Span
import Switchyard.Stamp
import Switchyard.State.Batch
import Switchyard.State.KeyValue
import Switchyard.State.Memory
import Switchyard.State.Service
import Switchyard.Testing.Broker
import Switchyard.Testing.Expectation
import Switchyard.Testing.Failure
import Switchyard.Testing.Recorder
import Switchyard.Testing.Store
import Switchyard.Text.Printable
import Switchyard.Text.Quoted
import Switchyard.Text.Record
import Switchyard.Uuid
import Switchyard.Proofs.Dispatch.Passage
import Switchyard.Proofs.Dispatch.Nesting
import Switchyard.Proofs.Dispatch.Turns
import Switchyard.Proofs.Dispatch.Exchange
import Switchyard.Proofs.Dispatch.Stages
import Switchyard.Proofs.Dispatch.Containment
import Switchyard.Proofs.Dispatch.Relaying
import Switchyard.Proofs.Dispatch.Registration
import Switchyard.Proofs.Dispatch.Cancellation
import Switchyard.Proofs.Dispatch.Screening
import Switchyard.Proofs.Dispatch.Rehearsed
import Switchyard.Proofs.Events.Conservation
import Switchyard.Proofs.Events.Delivery
import Switchyard.Proofs.Events.Sending
import Switchyard.Proofs.Events.Answers
import Switchyard.Proofs.Events.Stage
import Switchyard.Proofs.Events.Identity
import Switchyard.Proofs.Events.Outlet
import Switchyard.Proofs.Rehearsed
import Switchyard.Proofs.Context.Family
import Switchyard.Proofs.Context.Cancelling
import Switchyard.Proofs.Context.Rehearsed
import Switchyard.Proofs.State.Merging
import Switchyard.Proofs.State.Shelf
import Switchyard.Proofs.State.Recall
import Switchyard.Proofs.State.Front
import Switchyard.Proofs.State.Abandonment
import Switchyard.Proofs.State.Channel
import Switchyard.Proofs.State.Overtaking
import Switchyard.Proofs.Breaker.Gate
import Switchyard.Proofs.Breaker.Slots
import Switchyard.Proofs.Breaker.Turnstile
import Switchyard.Proofs.Breaker.Outcomes
import Switchyard.Proofs.Breaker.Isolation
import Switchyard.Proofs.Breaker.Trials
import Switchyard.Proofs.Breaker.Deeds
import Switchyard.Proofs.Breaker.Reading
import Switchyard.Proofs.Breaker.Deadline
import Switchyard.Proofs.State.Desk
import Switchyard.Proofs.State.Evidence
import Switchyard.Proofs.Breaker.Guarded
import Switchyard.Proofs.Breaker.Totals
import Switchyard.Proofs.Stepping
import Switchyard.Proofs.State.Precedence
import Switchyard.Proofs.State.Agreement
import Switchyard.Proofs.State.LastWrite
import Switchyard.Proofs.State.OwnWrite
import Switchyard.Proofs.State.Reach
import Switchyard.Proofs.State.Windows
import Switchyard.Proofs.State.Shutdown
import Switchyard.Proofs.State.Mirror
import Switchyard.Proofs.State.Provenance
import Switchyard.Proofs.State.Contention
import Switchyard.Proofs.State.TakingBack
import Switchyard.Proofs.State.Choices
import Switchyard.Proofs.State.Sweeping
import Switchyard.Proofs.Breaker.Notices
import Switchyard.Proofs.Breaker.Announced
import Switchyard.Proofs.Untouched
import Switchyard.Proofs.Testing.Failures
