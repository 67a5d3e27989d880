import AndroidBoot.Main
import AndroidBoot.Storage.Store
import AndroidBoot.Proofs.Bootconfig.Closing
import AndroidBoot.Proofs.Bootconfig.Appending
import AndroidBoot.Proofs.Bootconfig.Contents
import AndroidBoot.Proofs.Image.Codecs
import AndroidBoot.Proofs.Image.Inverses
import AndroidBoot.Proofs.Storage.NewFiles
import AndroidBoot.Proofs.Image.Layouts
import AndroidBoot.Proofs.Image.Resizing
import AndroidBoot.Proofs.Image.Packing
import AndroidBoot.Proofs.Cli.Sessions
import AndroidBoot.Proofs.Cli.Packing
import AndroidBoot.Proofs.DeviceTree.Paths
import AndroidBoot.Proofs.DeviceTree.Lookups
import AndroidBoot.Proofs.Text.Escaped
import AndroidBoot.Proofs.Text.Words
import AndroidBoot.Proofs.Toml.Integers
import AndroidBoot.Proofs.Toml.Strings
import AndroidBoot.Proofs.Toml.Values
import AndroidBoot.Proofs.Toml.Documents
import AndroidBoot.Proofs.Toml.Shapes
import AndroidBoot.Proofs.Image.Documents
import AndroidBoot.Proofs.Image.Unpacking
import AndroidBoot.Proofs.Storage.Directories
import AndroidBoot.Proofs.Cli.Unpacking
import AndroidBoot.Proofs.Assembly.Outputs
import AndroidBoot.Proofs.Assembly.Junctions
import AndroidBoot.Proofs.Assembly.Budgets
import AndroidBoot.Proofs.Assembly.Slots
import AndroidBoot.Proofs.Assembly.Versions
import AndroidBoot.Proofs.Cli.Leftovers
import AndroidBoot.Proofs.Device.Documents
import AndroidBoot.Proofs.Image.RamdiskTables
import AndroidBoot.Proofs.Image.Placement
import AndroidBoot.Proofs.Assembly.EntryLines
import AndroidBoot.Proofs.Cli.Regions
import AndroidBoot.Proofs.Device.OfflineTables
import AndroidBoot.Proofs.Bootconfig.Trailers
import AndroidBoot.Proofs.Bootconfig.Additions
import AndroidBoot.Proofs.Bootconfig.Failures
import AndroidBoot.Proofs.Bootconfig.Corruption
import AndroidBoot.Proofs.Image.Edits
import AndroidBoot.Proofs.Image.InstalledTables
import AndroidBoot.Proofs.Assembly.DisplayArguments
import AndroidBoot.Proofs.Image.Acceptance
import AndroidBoot.Proofs.DeviceTree.Turns
import AndroidBoot.Proofs.DeviceTree.Truncation
import AndroidBoot.Proofs.DeviceTree.Safety
import AndroidBoot.Proofs.Assembly.VerifiedBoot
import AndroidBoot.Proofs.Assembly.Shape
import AndroidBoot.Proofs.Device.MemoryLimits
import AndroidBoot.Proofs.Image.VersionWords
import AndroidBoot.Proofs.Number.Multiples
import AndroidBoot.Proofs.Storage.Sinks
import AndroidBoot.Proofs.Storage.FixedBuffers
import AndroidBoot.Proofs.Image.Pages
import AndroidBoot.Proofs.Image.CommandLines
