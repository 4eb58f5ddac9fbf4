import CommentProse.Json.Reader
import CommentProse.Main
import CommentProse.Message.Decode
import CommentProse.Proofs.Header
import CommentProse.Proofs.LineEnds
import CommentProse.Proofs.Location
import CommentProse.Proofs.Outcomes
import CommentProse.Proofs.Reports
import CommentProse.Proofs.Returns
import CommentProse.Proofs.Routes
import CommentProse.Proofs.Segments
import CommentProse.Proofs.Tree
import CommentProse.Proofs.Assembly
import CommentProse.Proofs.Selection
import CommentProse.Proofs.Stars
import CommentProse.Proofs.Alignment
import CommentProse.Proofs.FirstReports
import CommentProse.Proofs.RoundTrip
import CommentProse.Proofs.EmptyFiles
import CommentProse.Proofs.ByteCuts
import CommentProse.Proofs.Exclusions
import CommentProse.Proofs.Colours
import CommentProse.Proofs.Registrations
import CommentProse.Proofs.WrittenConfigs
