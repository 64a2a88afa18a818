import PostRun.Bib.Bibliography
import PostRun.Bib.Chunk
import PostRun.Bib.Command
import PostRun.Bib.Content
import PostRun.Bib.Date
import PostRun.Bib.Entry
import PostRun.Bib.Failure
import PostRun.Bib.Reader
import PostRun.Bib.Source
import PostRun.Citation.Directory
import PostRun.Citation.Failure
import PostRun.Citation.Link
import PostRun.Citation.Page
import PostRun.Command.Arguments
import PostRun.Command.Program
import PostRun.Command.Usage
import PostRun.Files.Access
import PostRun.Files.Discovery
import PostRun.Files.Glob
import PostRun.Files.IoError
import PostRun.Files.Tree
import PostRun.Html.Elements
import PostRun.Html.RawText
import PostRun.Html.Surround
import PostRun.Html.Tag
import PostRun.Html.Token
import PostRun.Log
import PostRun.Main
import PostRun.Number.Binary64
import PostRun.Number.Decimal
import PostRun.Number.Notation
import PostRun.Number.Scalar
import PostRun.Number.Word
import PostRun.Poisson.Differentiation
import PostRun.Poisson.Interval
import PostRun.Poisson.Nodes
import PostRun.Poisson.Segment
import PostRun.Poisson.SegmentWords
import PostRun.Poisson.Verification
import PostRun.Proofs.Attempts
import PostRun.Proofs.Bib.Fields
import PostRun.Proofs.Bib.Inheritance
import PostRun.Proofs.Bib.Lookup
import PostRun.Proofs.Citation.Accounting
import PostRun.Proofs.Citation.Completion
import PostRun.Proofs.Citation.Conservation
import PostRun.Proofs.Citation.KeyCase
import PostRun.Proofs.Citation.LinkMarkup
import PostRun.Proofs.Citation.Lookup
import PostRun.Proofs.Citation.Overlooked
import PostRun.Proofs.Citation.Queue
import PostRun.Proofs.Citation.Rereading
import PostRun.Proofs.Citation.Run
import PostRun.Proofs.Citation.Splice
import PostRun.Proofs.Citation.WellNested
import PostRun.Proofs.Files.Braces
import PostRun.Proofs.Files.Directories
import PostRun.Proofs.Files.Expansion
import PostRun.Proofs.Files.Matching
import PostRun.Proofs.Files.NameBytes
import PostRun.Proofs.Files.Storage
import PostRun.Proofs.Html.Content
import PostRun.Proofs.Html.Cut
import PostRun.Proofs.Html.Identifiers
import PostRun.Proofs.Html.Lookahead
import PostRun.Proofs.Html.Steps
import PostRun.Proofs.Html.Surroundings
import PostRun.Proofs.Number.Exact
import PostRun.Proofs.Number.Grid
import PostRun.Proofs.Number.Nearest
import PostRun.Proofs.Number.Reading
import PostRun.Proofs.Number.Recovery
import PostRun.Proofs.Number.Rounding
import PostRun.Proofs.Number.Value
import PostRun.Proofs.Poisson.Bisection
import PostRun.Proofs.Poisson.Differentiation
import PostRun.Proofs.Poisson.Elements
import PostRun.Proofs.Poisson.Legendre
import PostRun.Proofs.Poisson.Lobatto
import PostRun.Proofs.Poisson.Mirror
import PostRun.Proofs.Poisson.Names
import PostRun.Proofs.Poisson.Naming
import PostRun.Proofs.Poisson.Residuals
import PostRun.Proofs.Poisson.Sampling
import PostRun.Proofs.Poisson.Shape
import PostRun.Proofs.Poisson.Tiling
import PostRun.Proofs.Text.ByteOrder
import PostRun.Proofs.Text.Digits
import PostRun.Proofs.Text.Pieces
import PostRun.Proofs.Text.Unescape
import PostRun.Proofs.Volume.Assembly
import PostRun.Proofs.Volume.Cells
import PostRun.Proofs.Volume.GridNames
import PostRun.Proofs.Volume.Insertions
import PostRun.Proofs.Volume.Octets
import PostRun.Proofs.Volume.Splitting
import PostRun.Proofs.Xdmf.Collection
import PostRun.Proofs.Xdmf.Discovery
import PostRun.Proofs.Xdmf.FieldNames
import PostRun.Proofs.Xdmf.Fields
import PostRun.Proofs.Xdmf.Grids
import PostRun.Proofs.Xdmf.Outcome
import PostRun.Proofs.Xdmf.Outline
import PostRun.Proofs.Xdmf.Prefixes
import PostRun.Proofs.Xdmf.Reading
import PostRun.Proofs.Xdmf.References
import PostRun.Proofs.Xdmf.Scan
import PostRun.Proofs.Xdmf.Sizes
import PostRun.Proofs.Xdmf.Snapshots
import PostRun.Proofs.Xdmf.Times
import PostRun.Proofs.Xdmf.Window
import PostRun.Proofs.Xdmf.Written
import PostRun.Text.Accent
import PostRun.Text.Blank
import PostRun.Text.Escape
import PostRun.Text.Letter
import PostRun.Text.NameMap
import PostRun.Text.Pieces
import PostRun.Text.Quoted
import PostRun.Text.Range
import PostRun.Text.Similarity
import PostRun.Text.Unseen
import PostRun.Volume.File
import PostRun.Volume.Layout
import PostRun.Volume.Observation
import PostRun.Xdmf.Document
import PostRun.Xdmf.Failure
import PostRun.Xdmf.Field
import PostRun.Xdmf.Markup
import PostRun.Xdmf.MeshSize
import PostRun.Xdmf.Selection
