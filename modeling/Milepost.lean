import Milepost.AsyncObject
import Milepost.Backend
import Milepost.Buffer
import Milepost.Buffer.Drain
import Milepost.Buffer.GrowRetry
import Milepost.Buffer.Shared
import Milepost.Buffer.Shelf
import Milepost.Bytes
import Milepost.Callbacks
import Milepost.Cluster
import Milepost.Connection
import Milepost.Counter
import Milepost.Failure
import Milepost.Failure.Io
import Milepost.Failure.IoFault
import Milepost.Flight
import Milepost.Flight.Issuer
import Milepost.Flight.Waiter
import Milepost.Handle
import Milepost.InMemory
import Milepost.InMemory.Calls
import Milepost.InMemory.Setup
import Milepost.InMemory.Worker
import Milepost.Journal
import Milepost.Meters
import Milepost.Meters.Exposition
import Milepost.Milestone
import Milepost.Operation
import Milepost.Outcome
import Milepost.Proofs.Agreement.Apart
import Milepost.Proofs.Agreement.Fates
import Milepost.Proofs.Agreement.Lockstep
import Milepost.Proofs.Agreement.Schedules
import Milepost.Proofs.Agreement.Times
import Milepost.Proofs.Agreement.Trace
import Milepost.Proofs.Attributes
import Milepost.Proofs.Balance
import Milepost.Proofs.Changes
import Milepost.Proofs.Client
import Milepost.Proofs.Completions
import Milepost.Proofs.Contents
import Milepost.Proofs.Conversions
import Milepost.Proofs.Custody
import Milepost.Proofs.DirectCalls
import Milepost.Proofs.Draining
import Milepost.Proofs.Flight.Course
import Milepost.Proofs.Flight.Deeds
import Milepost.Proofs.Flight.Issue
import Milepost.Proofs.Flight.Keeping
import Milepost.Proofs.Flight.Moves
import Milepost.Proofs.Flight.Standing
import Milepost.Proofs.Flight.Story
import Milepost.Proofs.Flight.Unissued
import Milepost.Proofs.Growing
import Milepost.Proofs.Growing.Accounts
import Milepost.Proofs.Growing.Doubling
import Milepost.Proofs.Growing.Fitting
import Milepost.Proofs.Growing.Lendings
import Milepost.Proofs.Handling
import Milepost.Proofs.Handling.Advance
import Milepost.Proofs.Handling.Lifetime
import Milepost.Proofs.Handling.Moves
import Milepost.Proofs.Happenings
import Milepost.Proofs.Lookups
import Milepost.Proofs.Metering
import Milepost.Proofs.NameList
import Milepost.Proofs.Names
import Milepost.Proofs.Numbers
import Milepost.Proofs.Opened
import Milepost.Proofs.Pipeline
import Milepost.Proofs.PoolListing
import Milepost.Proofs.PoolListing.Delivery
import Milepost.Proofs.PoolSetting
import Milepost.Proofs.Progress
import Milepost.Proofs.Reading
import Milepost.Proofs.Reference
import Milepost.Proofs.Refusal
import Milepost.Proofs.Release
import Milepost.Proofs.Reporting
import Milepost.Proofs.Schedule
import Milepost.Proofs.Service.Acceptance
import Milepost.Proofs.Service.Answers
import Milepost.Proofs.Service.Flush
import Milepost.Proofs.Service.Ledger
import Milepost.Proofs.Service.Order
import Milepost.Proofs.Service.Releases
import Milepost.Proofs.Session
import Milepost.Proofs.Sharing
import Milepost.Proofs.Sharing.Beside
import Milepost.Proofs.Sharing.Spoiled
import Milepost.Proofs.Shelving
import Milepost.Proofs.Shutdown
import Milepost.Proofs.Sizes
import Milepost.Proofs.Telling
import Milepost.Proofs.Utf8
import Milepost.Proofs.Watching
import Milepost.Proofs.Writing
import Milepost.Scripted
import Milepost.Status
import Milepost.Status.ErrorText
import Milepost.Store
import Milepost.System
import Milepost.Text.Blank
import Milepost.Text.Invisible
import Milepost.Text.Name
import Milepost.Text.Natural
import Milepost.Text.Quoted
import Milepost.Text.Utf8
import Milepost.World
