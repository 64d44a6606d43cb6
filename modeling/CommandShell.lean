import CommandShell.Action
import CommandShell.Alias
import CommandShell.Builtin
import CommandShell.CommandLine
import CommandShell.Console
import CommandShell.Expression
import CommandShell.Failure
import CommandShell.Host
import CommandShell.Kernel
import CommandShell.Line
import CommandShell.Main
import CommandShell.Path.Segment
import CommandShell.Pattern.Fault
import CommandShell.Pattern.Property
import CommandShell.Pattern.Reader
import CommandShell.Program
import CommandShell.Proofs.Alias.Arguments
import CommandShell.Proofs.Alias.Chain
import CommandShell.Proofs.Expression.Forms
import CommandShell.Proofs.External.Alignment
import CommandShell.Proofs.External.Precedence
import CommandShell.Proofs.Follow.History
import CommandShell.Proofs.Follow.Replay
import CommandShell.Proofs.Host.Apart
import CommandShell.Proofs.Line.Grammar
import CommandShell.Proofs.Line.Parts
import CommandShell.Proofs.Line.Unfinished
import CommandShell.Proofs.Lookup.Absolute
import CommandShell.Proofs.Lookup.Group
import CommandShell.Proofs.Lookup.Normal
import CommandShell.Proofs.Lookup.Resolution
import CommandShell.Proofs.Path.Encoding
import CommandShell.Proofs.Path.Search
import CommandShell.Proofs.Registry.Admission
import CommandShell.Proofs.Registry.Attempt
import CommandShell.Proofs.Registry.Completions
import CommandShell.Proofs.Registry.Convergence
import CommandShell.Proofs.Registry.Delivery
import CommandShell.Proofs.Registry.Follower
import CommandShell.Proofs.Registry.Hub
import CommandShell.Proofs.Run.Adequacy
import CommandShell.Proofs.Run.Causes
import CommandShell.Proofs.Run.Course
import CommandShell.Proofs.Run.Depth
import CommandShell.Proofs.Run.Errors
import CommandShell.Proofs.Run.Hermetic
import CommandShell.Proofs.Run.Policy
import CommandShell.Proofs.Run.Sequence
import CommandShell.Proofs.Run.Streams
import CommandShell.Proofs.Run.Termination
import CommandShell.Proofs.Run.Words
import CommandShell.Proofs.Substitution.Extent
import CommandShell.Proofs.Substitution.Gathered
import CommandShell.Proofs.Substitution.Nesting
import CommandShell.Resolution
import CommandShell.Session.Run
import CommandShell.Text.Quoted
import CommandShell.Text.Utf8
