import Sandbox.Text.Utf8
import Sandbox.Text.Quoted
import Sandbox.Number.Shortest
import Sandbox.Path
import Sandbox.Host.Basic
import Sandbox.Json.Pointer
import Sandbox.Json.Printer
import Sandbox.Json.Record
import Sandbox.Memory.Limit
import Sandbox.Memory.Amount
import Sandbox.InstanceId
import Sandbox.Accounts
import Sandbox.Config
import Sandbox.Application
import Sandbox.Package.Basic
import Sandbox.Package.Metadata
import Sandbox.Spec.Fragment
import Sandbox.Spec.Basic
import Sandbox.Overlay
import Sandbox.Generate.Instance
import Sandbox.CommandLine.Command
import Sandbox.CommandLine.Run
import Sandbox.Main
import Sandbox.Proofs.Generate.Failure
import Sandbox.Proofs.Generate.Mounts
import Sandbox.Proofs.Generate.Identity
import Sandbox.Proofs.Generate.Independence
import Sandbox.Proofs.Spec.Growth
import Sandbox.Proofs.Spec.Fitting
import Sandbox.Proofs.Generate.Stages
import Sandbox.Proofs.Generate.Degraded
import Sandbox.Proofs.Json.Scalar
import Sandbox.Proofs.Json.Text
import Sandbox.Proofs.Spec.Readable
import Sandbox.Proofs.Spec.Reload
import Sandbox.Proofs.Host.Touch
import Sandbox.Proofs.Host.Inside
import Sandbox.Proofs.Generate.Latest
import Sandbox.Proofs.Spec.Gains
import Sandbox.Proofs.Generate.Contents
import Sandbox.Proofs.Spec.Outcome
import Sandbox.Proofs.Spec.Commute
import Sandbox.Proofs.Generate.Grant
import Sandbox.Proofs.Spec.Obstacle
import Sandbox.Proofs.Spec.Devices
import Sandbox.Proofs.Spec.Capabilities
import Sandbox.Proofs.Generate.Limit
import Sandbox.Proofs.Spec.Replace
import Sandbox.Proofs.Host.Segments
import Sandbox.Proofs.Generate.Key
import Sandbox.Proofs.Host.Options
import Sandbox.Proofs.Json.Values
import Sandbox.Proofs.Memory.Grammar
import Sandbox.Proofs.Package.Fields
import Sandbox.Proofs.Package.Manifest
import Sandbox.Proofs.Generate.Layers
import Sandbox.Proofs.Path.Shown
import Sandbox.Proofs.Generate.Socket
import Sandbox.Proofs.Generate.Mappings
import Sandbox.Proofs.Number.Rounding
import Sandbox.Proofs.Memory.Amount
import Sandbox.Proofs.Json.Spelling
import Sandbox.Proofs.Json.Passing
import Sandbox.Proofs.Json.Recovery
import Sandbox.Proofs.Json.Prune
import Sandbox.Proofs.Spec.Missing
