import PathTemplate.Bindings.Iter
import PathTemplate.Bindings.Order
import PathTemplate.Bindings.Text
import PathTemplate.Bindings.WellFormed
import PathTemplate.Pattern.Reading
import PathTemplate.Route.Expand
import PathTemplate.Segment.Assignment
import PathTemplate.Segment.Chars
import PathTemplate.Proofs.Filling
import PathTemplate.Proofs.Numbering
import PathTemplate.Proofs.Assigning
import PathTemplate.Proofs.Bytes
import PathTemplate.Proofs.Reading
import PathTemplate.Proofs.Entries
import PathTemplate.Proofs.Expanding
import PathTemplate.Proofs.Matching
import PathTemplate.Proofs.RoundTrip
import PathTemplate.Proofs.Slashes
import PathTemplate.Proofs.Places
import PathTemplate.Proofs.Rendering
import PathTemplate.Proofs.Escaping
import PathTemplate.Proofs.Searching
import PathTemplate.Proofs.OrderedMap
import PathTemplate.Proofs.Merging
import PathTemplate.Proofs.Joining
import PathTemplate.Proofs.Splitting
import PathTemplate.Proofs.Supplying
import PathTemplate.Proofs.Outcomes
import PathTemplate.Proofs.Storing
import PathTemplate.Proofs.ByteOrder
import PathTemplate.Proofs.Ordering
import PathTemplate.Proofs.Renaming
import PathTemplate.Proofs.Repairing
import PathTemplate.Proofs.Returning
import PathTemplate.Proofs.Boundaries
