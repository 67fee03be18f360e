import PluginHost.Capability.Cell
import PluginHost.CommandLine
import PluginHost.Main
import PluginHost.Proofs.Table.Counted
import PluginHost.World.Action
import PluginHost.Proofs.Host.Balance
import PluginHost.Proofs.Host.Chronicle
import PluginHost.Proofs.Host.Soundness
import PluginHost.Proofs.Loader.Soundness
import PluginHost.Proofs.Loader.Index
import PluginHost.Proofs.Loader.Backing
import PluginHost.Proofs.Handle.Soundness
import PluginHost.Proofs.World.Soundness
import PluginHost.Proofs.World.Residency
import PluginHost.Proofs.World.LifeCycle
import PluginHost.Proofs.World.Transparency
import PluginHost.Proofs.Loader.Settled
import PluginHost.Proofs.World.Listing
import PluginHost.Proofs.World.Forgetting
import PluginHost.Proofs.Loader.Frame
import PluginHost.Proofs.Loader.Exclusive
import PluginHost.Proofs.World.Loaders
import PluginHost.Proofs.World.Exclusivity
import PluginHost.Proofs.Path.Pieces
import PluginHost.Proofs.FileTree.Walk
import PluginHost.Proofs.FileTree.WellFormed
import PluginHost.Proofs.World.Evolution
import PluginHost.Proofs.Loader.Spelling
import PluginHost.Proofs.World.Spelling
import PluginHost.Proofs.Image.Uses
import PluginHost.Proofs.World.Typing
import PluginHost.Proofs.Name.Canonical
import PluginHost.Proofs.Loader.Operation
import PluginHost.Proofs.Loader.Representation
import PluginHost.Proofs.Loader.History
import PluginHost.Proofs.World.Operations
import PluginHost.Proofs.World.History
import PluginHost.Proofs.World.Representation
import PluginHost.Proofs.Host.Restored
import PluginHost.Proofs.Loader.Failure
import PluginHost.Proofs.World.Failure
import PluginHost.Proofs.World.Live
import PluginHost.Proofs.World.Apart
import PluginHost.Proofs.World.Frame
import PluginHost.Proofs.World.Intact
import PluginHost.Proofs.Ordered
import PluginHost.Proofs.Text.Utf8
import PluginHost.Proofs.Text.Order
import PluginHost.Proofs.Image.Enumeration
import PluginHost.Proofs.Image.Exported
import PluginHost.Proofs.Image.Declared
import PluginHost.Proofs.Loader.Delivery
import PluginHost.Proofs.World.Delivery
import PluginHost.Proofs.Host.Counters
import PluginHost.Proofs.World.Counters
import PluginHost.Proofs.World.Lookup
import PluginHost.Proofs.Table.Each
import PluginHost.Proofs.Loader.Registration
import PluginHost.Proofs.World.Registration
import PluginHost.Proofs.Host.Strings
import PluginHost.Proofs.Loader.Outline
import PluginHost.Proofs.Loader.Reload
import PluginHost.Proofs.World.Reload
import PluginHost.Proofs.Host.Parting
import PluginHost.Proofs.Image.Legacy
import PluginHost.Proofs.Loader.Legacy
import PluginHost.Proofs.World.Parting
import PluginHost.Proofs.World.Legacy
import PluginHost.Proofs.FileTree.Coherent
import PluginHost.Proofs.Host.Faithful
import PluginHost.Proofs.Loader.Agreement
import PluginHost.Proofs.CommandLine.Preload
import PluginHost.Proofs.CommandLine.Outcome
import PluginHost.Proofs.Image.Translation
import PluginHost.Proofs.Image.Verdict
import PluginHost.Proofs.Image.Calls
import PluginHost.Proofs.Loader.Calls
import PluginHost.Proofs.World.Calls
import PluginHost.Proofs.FileTree.Removal
import PluginHost.Proofs.Loader.Removal
import PluginHost.Proofs.World.Removal
import PluginHost.Proofs.Loader.Query
import PluginHost.Proofs.World.Query
import PluginHost.Proofs.Handle.Identity
import PluginHost.Proofs.World.Identity
import PluginHost.Proofs.Loader.Report
import PluginHost.Proofs.Loader.Dump
import PluginHost.Proofs.World.Dump
import PluginHost.Proofs.Loader.Offers
import PluginHost.Proofs.Loader.Passes
import PluginHost.Proofs.Host.Mirrors
import PluginHost.Proofs.Loader.Mirrors
import PluginHost.Proofs.World.Loads
import PluginHost.Proofs.World.Preload
import PluginHost.Proofs.Name.Collision
import PluginHost.Proofs.Text.Trim
import PluginHost.Proofs.Config.Variable
import PluginHost.Proofs.Config.Overrides
import PluginHost.Proofs.Capability.Set
import PluginHost.Proofs.Capability.Cell
