import FilterScope.Filter.Grammar
import FilterScope.Filter.Printer
import FilterScope.Schema.Label
import FilterScope.Check.Document
import FilterScope.File.Tree
import FilterScope.Main
import FilterScope.Proofs.Check.Leaves
import FilterScope.Proofs.Filter.Joining
import FilterScope.Proofs.Filter.Lexeme
import FilterScope.Proofs.Filter.Parser
import FilterScope.Proofs.Filter.Printer
import FilterScope.Proofs.Schema.Description
import FilterScope.Proofs.Schema.Registry
import FilterScope.Proofs.Filter.Stopping
import FilterScope.Proofs.Check.ByName
import FilterScope.Proofs.Check.Horizon
import FilterScope.Proofs.Check.Wording
import FilterScope.Proofs.Check.Growth
import FilterScope.Proofs.Check.Insertion
import FilterScope.Proofs.Check.EntryPoints
import FilterScope.Proofs.Schema.Registration
import FilterScope.Proofs.Filter.Refusal
import FilterScope.Proofs.Filter.Surroundings
import FilterScope.Proofs.Check.Surroundings
import FilterScope.Proofs.Json.Reader
import FilterScope.Proofs.Json.Value
import FilterScope.Proofs.Json.Record
import FilterScope.Proofs.Json.Names
import FilterScope.Proofs.Schema.Document
import FilterScope.Proofs.Schema.Keys
import FilterScope.Proofs.Check.Selection
import FilterScope.Proofs.Schema.Loops
import FilterScope.Proofs.Filter.Faults
import FilterScope.Proofs.Schema.Grammar
import FilterScope.Message.Grammar
import FilterScope.Proofs.Schema.Steps
import FilterScope.Proofs.Message.Template
import FilterScope.Proofs.Json.Spelling
import FilterScope.Proofs.Message.Document
import FilterScope.Proofs.CommandLine.Options
import FilterScope.Proofs.CommandLine.Run
import FilterScope.Proofs.Schema.Calls
