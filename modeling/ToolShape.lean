import ToolShape.Main
import ToolShape.LogFormat
import ToolShape.Proofs.Check.Ambiguity
import ToolShape.Proofs.Check.Rearrangement
import ToolShape.Proofs.CommandLine.Output
import ToolShape.Proofs.Conversion.Composition
import ToolShape.Proofs.Conversion.Effort
import ToolShape.Proofs.Conversion.Enumeration
import ToolShape.Proofs.Conversion.Independence
import ToolShape.Proofs.Conversion.KeyOrder
import ToolShape.Proofs.Conversion.Limit
import ToolShape.Proofs.Conversion.Requirement
import ToolShape.Proofs.Conversion.Sites
import ToolShape.Proofs.Name.Encoding
import ToolShape.Proofs.Tool.Batch
import ToolShape.Proofs.Tool.Document
import ToolShape.Proofs.Tool.History
import ToolShape.Proofs.Tool.Session
import ToolShape.Proofs.Tool.Summary
import ToolShape.Proofs.Tool.Trace
import ToolShape.Proofs.TypeScript.Alias
import ToolShape.Proofs.TypeScript.File
import ToolShape.Proofs.TypeScript.Spelling
