import BenchReport.Main
import BenchReport.Proofs.Program.Images
import BenchReport.Proofs.Program.Pipeline
import BenchReport.Proofs.Run.Extraction
import BenchReport.Proofs.Samples.History
import BenchReport.Proofs.Path.Order
import BenchReport.Proofs.FileTree.Access
import BenchReport.Proofs.FileTree.Removal
import BenchReport.Proofs.Glob.Removal
import BenchReport.Proofs.LogFile.Survey
import BenchReport.Proofs.Double.Order
import BenchReport.Proofs.Chart.Range
import BenchReport.Proofs.Table.Plotting
import BenchReport.Proofs.Double.Sum
import BenchReport.Proofs.Samples.Means
import BenchReport.Proofs.CommandLine.Flags
import BenchReport.Proofs.Program.Reporting
import BenchReport.Proofs.Glob.Descent
import BenchReport.Proofs.LogFile.Extension
import BenchReport.Proofs.Table.Pairing
import BenchReport.Proofs.Table.Loading
import BenchReport.Proofs.Report.Agreement
import BenchReport.Proofs.Program.Drawing
import BenchReport.Proofs.Chart.Joining
import BenchReport.Proofs.Text.Lossy
import BenchReport.Proofs.Run.Surroundings
import BenchReport.Proofs.LogFile.Listing
import BenchReport.Proofs.Table.Partitions
import BenchReport.Proofs.Report.Lines
import BenchReport.Proofs.Samples.Rounding
import BenchReport.Proofs.Report.ShownMeans
import BenchReport.Proofs.Report.Nanoseconds
import BenchReport.Proofs.LogFile.Times
import BenchReport.Proofs.Chart.Speedups
import BenchReport.Proofs.Chart.Axes
