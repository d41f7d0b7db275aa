import ShaderReport.Container.Build
import ShaderReport.Main
import ShaderReport.Proofs.Layout.Recursion
import ShaderReport.Proofs.Layout.Paths
import ShaderReport.Proofs.Bytes.Windows
import ShaderReport.Proofs.Container.Format
import ShaderReport.Proofs.Container.RoundTrip
import ShaderReport.Proofs.Report.Marked
import ShaderReport.Proofs.Container.Contents
import ShaderReport.Proofs.Disassembly.Sections
import ShaderReport.Proofs.Disassembly.Failure
import ShaderReport.Proofs.Container.Unread
import ShaderReport.Proofs.Disassembly.Dependence
import ShaderReport.Proofs.Program.Format
import ShaderReport.Proofs.Disassembly.Forms
import ShaderReport.Proofs.Types.Interning
import ShaderReport.Proofs.Types.Measure
import ShaderReport.Proofs.Types.ExactSize
import ShaderReport.Proofs.Types.Descent
import ShaderReport.Proofs.Types.Growth
import ShaderReport.Proofs.Layout.Growth
import ShaderReport.Proofs.Layout.Visibility
import ShaderReport.Proofs.Module.Printing
import ShaderReport.Proofs.Module.Remarks
import ShaderReport.Proofs.Report.Writing
import ShaderReport.Proofs.Disassembly.Composition
import ShaderReport.Proofs.CommandLine.Files
import ShaderReport.Proofs.CommandLine.Effects
import ShaderReport.Proofs.Layout.ArraySizes
import ShaderReport.Proofs.Layout.MatrixForms
import ShaderReport.Proofs.Container.Lookup
import ShaderReport.Proofs.Bytes.Names
import ShaderReport.Proofs.RegisterSignature.RoundTrip
import ShaderReport.Proofs.Bytes.Cursors
import ShaderReport.Proofs.RegisterSignature.Format
import ShaderReport.Proofs.Program.RoundTrip
import ShaderReport.Proofs.RuntimeInfo.Format
import ShaderReport.Proofs.Bitcode.Format
import ShaderReport.Proofs.Types.FieldOffsets
import ShaderReport.Proofs.Text.Backwards
import ShaderReport.Proofs.Types.Endings
import ShaderReport.Proofs.Types.Unambiguous
import ShaderReport.Proofs.Types.Matrices
import ShaderReport.Proofs.Layout.Columns
import ShaderReport.Proofs.Module.Metadata
import ShaderReport.Proofs.RegisterSignature.UsedColumn
import ShaderReport.Proofs.Module.Built
import ShaderReport.Proofs.Module.Operands
import ShaderReport.Proofs.MD5.Pieces
import ShaderReport.Proofs.Bytes.Scripts
import ShaderReport.Proofs.Module.Symbols
import ShaderReport.Proofs.Container.Stamping
import ShaderReport.Proofs.Module.Integers
import ShaderReport.Proofs.Container.Tags
