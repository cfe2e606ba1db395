import Buildbox.Archive.Writer
import Buildbox.CommandLine.Recording
import Buildbox.Main
import Buildbox.Proofs.Text.Encoding
import Buildbox.Proofs.Text.Reading
import Buildbox.Proofs.Archive.Field
import Buildbox.Proofs.Text.Stream
import Buildbox.Proofs.Text.Decimal
import Buildbox.Proofs.Diagnostic.Display
import Buildbox.Proofs.Json.Scalar
import Buildbox.Proofs.Json.Reading
import Buildbox.Proofs.Json.Decoding
import Buildbox.Proofs.Archive.RoundTrip
import Buildbox.Proofs.Archive.Walk
import Buildbox.Proofs.Archive.Cursor
import Buildbox.Proofs.Session.Traffic
import Buildbox.Proofs.Session.Ledger
import Buildbox.Proofs.Session.Provenance
import Buildbox.Proofs.Session.Settlement
import Buildbox.Proofs.Session.Eviction
import Buildbox.Proofs.Session.Schedule
import Buildbox.Proofs.Session.Delivery
import Buildbox.Proofs.Session.Telling
import Buildbox.Proofs.Input.Register
import Buildbox.Proofs.Host.Trace
import Buildbox.Proofs.Host.Service
import Buildbox.Proofs.Host.Action
import Buildbox.Proofs.Memory.Transfer
import Buildbox.Proofs.Memory.Scatter
import Buildbox.Proofs.Engine.Scripted
import Buildbox.Proofs.Engine.Logged
import Buildbox.Proofs.Filesystem.Serving
import Buildbox.Proofs.Filesystem.History
import Buildbox.Proofs.Filesystem.Input
import Buildbox.Proofs.Filesystem.Output
import Buildbox.Proofs.Filesystem.Loan
import Buildbox.Proofs.Guest.Deed
import Buildbox.Proofs.Guest.Speech
import Buildbox.Proofs.Guest.Life
import Buildbox.Proofs.Guest.Record
import Buildbox.Proofs.Guest.Company
import Buildbox.Proofs.Toolchain.Stages
import Buildbox.Proofs.Session.Requests
import Buildbox.Proofs.Session.Custody
import Buildbox.Proofs.Host.Task
import Buildbox.Proofs.Cache.Sharing
import Buildbox.Proofs.Filesystem.Aside
import Buildbox.Proofs.Guest.Writing
import Buildbox.Proofs.Toolchain.Rest
import Buildbox.Proofs.Toolchain.Check
import Buildbox.Proofs.Toolchain.Build
import Buildbox.Proofs.Toolchain.Usage
import Buildbox.Proofs.Filesystem.Lasting
import Buildbox.Proofs.Toolchain.Preparation
import Buildbox.Proofs.Toolchain.Course
import Buildbox.Proofs.Toolchain.Account
import Buildbox.Proofs.Session.Lines
import Buildbox.Proofs.Session.Regions
import Buildbox.Proofs.Session.Waiting
import Buildbox.Proofs.Session.Replies
import Buildbox.Proofs.Session.Depiction
import Buildbox.Proofs.Session.Relay
import Buildbox.Proofs.Diagnostic.Cut
import Buildbox.Proofs.Archive.Shortening
import Buildbox.Proofs.Input.Truncation
import Buildbox.Proofs.Memory.Frame
import Buildbox.Proofs.Guest.Arguments
import Buildbox.Proofs.Guest.Linking
import Buildbox.Proofs.Memory.Exact
import Buildbox.Proofs.Guest.AddressSpace
import Buildbox.Proofs.Filesystem.Transaction
import Buildbox.Proofs.Filesystem.NodeTable
import Buildbox.Proofs.Filesystem.Shelf
import Buildbox.Proofs.Engine.Allocating
import Buildbox.Proofs.Filesystem.Deposits
import Buildbox.Proofs.Session.Timing
import Buildbox.Proofs.Memory.Operation
