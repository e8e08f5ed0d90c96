import SyntaxCatalog.ConfigFile.Json
import SyntaxCatalog.Main
import SyntaxCatalog.Proofs.Catalog.RoundTrip
import SyntaxCatalog.Proofs.Descriptor.Acceptance
import SyntaxCatalog.Proofs.Generation.Lookup
import SyntaxCatalog.Proofs.Json.Passing
import SyntaxCatalog.Proofs.Json.Records
import SyntaxCatalog.Proofs.Json.Refusing
import SyntaxCatalog.Proofs.Catalog.Acceptance
import SyntaxCatalog.Proofs.Catalog.Representation
import SyntaxCatalog.Proofs.Generation.Destinations
import SyntaxCatalog.Proofs.Catalog.Truncation
import SyntaxCatalog.Proofs.Descriptor.Overlooking
import SyntaxCatalog.Proofs.Generation.Interleaving
import SyntaxCatalog.Proofs.Generation.Regeneration
import SyntaxCatalog.Proofs.Settings.Layers
import SyntaxCatalog.Proofs.Generation.Overwriting
import SyntaxCatalog.Proofs.Command.Printing
import SyntaxCatalog.Proofs.Command.Lookup
import SyntaxCatalog.Proofs.Generation.Log
import SyntaxCatalog.Proofs.Toml.Keys
import SyntaxCatalog.Proofs.Toml.Value
import SyntaxCatalog.Proofs.ConfigFile.Acceptance
import SyntaxCatalog.Proofs.Toml.Grammar
import SyntaxCatalog.Proofs.Toml.Reading
import SyntaxCatalog.Proofs.Toml.Naming
import SyntaxCatalog.Proofs.Toml.Writing
import SyntaxCatalog.Proofs.ConfigFile.Parts
import SyntaxCatalog.Proofs.ConfigFile.Texts
import SyntaxCatalog.Proofs.Catalog.Records
import SyntaxCatalog.Proofs.Catalog.Layouts
import SyntaxCatalog.Proofs.Catalog.Frame
import SyntaxCatalog.Proofs.Catalog.Rearrangement
import SyntaxCatalog.Proofs.FileTree.Holding
import SyntaxCatalog.Proofs.FileTree.Joining
import SyntaxCatalog.Proofs.FileTree.Onward
import SyntaxCatalog.Proofs.Path.Directory
import SyntaxCatalog.Proofs.Settings.BaseDirectory
