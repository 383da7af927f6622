import EmbeddedMarkup.Main
import EmbeddedMarkup.Proofs.Html.GapPattern
import EmbeddedMarkup.Proofs.Html.Flow
import EmbeddedMarkup.Proofs.Html.Idempotent
import EmbeddedMarkup.Proofs.Html.Intact
import EmbeddedMarkup.Proofs.Html.Partition
import EmbeddedMarkup.Proofs.Html.Preformatted
import EmbeddedMarkup.Proofs.Lint.Soundness
import EmbeddedMarkup.Proofs.Run.Check
import EmbeddedMarkup.Proofs.Safe.Unescape
import EmbeddedMarkup.Proofs.Safe.Untrusted
import EmbeddedMarkup.Proofs.Source.BlanksOnly
import EmbeddedMarkup.Proofs.Source.Refill
import EmbeddedMarkup.Proofs.Source.Splicing
import EmbeddedMarkup.Proofs.Text.Cursor
import EmbeddedMarkup.Proofs.Lint.Circle
import EmbeddedMarkup.Proofs.Lint.Failure
import EmbeddedMarkup.Proofs.Html.Brackets
import EmbeddedMarkup.Proofs.Html.Misdirected
import EmbeddedMarkup.Proofs.Html.Contents
import EmbeddedMarkup.Proofs.Html.Refused
import EmbeddedMarkup.Proofs.Source.Position
import EmbeddedMarkup.Proofs.Run.Encoding
import EmbeddedMarkup.Proofs.Safe.Attributes
import EmbeddedMarkup.Proofs.Safe.Containers
import EmbeddedMarkup.Proofs.Safe.Json
import EmbeddedMarkup.Proofs.Safe.RawText
import EmbeddedMarkup.Proofs.Source.Kept
import EmbeddedMarkup.Proofs.Html.Filling
import EmbeddedMarkup.Proofs.Source.Trimming
import EmbeddedMarkup.Proofs.Html.Understood
import EmbeddedMarkup.Proofs.Html.Header
