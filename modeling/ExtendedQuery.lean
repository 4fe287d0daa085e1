import ExtendedQuery.Proofs.Batch.Execution
import ExtendedQuery.Proofs.Batch.Separation
import ExtendedQuery.Proofs.Batch.Stored
import ExtendedQuery.Proofs.Config.Options
import ExtendedQuery.Proofs.Parameter.Concatenation
import ExtendedQuery.Proofs.Parameter.Outputs
import ExtendedQuery.Proofs.Parameter.ReadBack
import ExtendedQuery.Proofs.Parameter.Stable
import ExtendedQuery.Proofs.Session.Blamed
import ExtendedQuery.Proofs.Session.Faithful
import ExtendedQuery.Proofs.Session.Metadata
import ExtendedQuery.Proofs.Session.Readable
import ExtendedQuery.Proofs.Session.Recency
import ExtendedQuery.Proofs.Session.Repeated
import ExtendedQuery.Proofs.Session.Transparent
import ExtendedQuery.Proofs.Session.Validated
import ExtendedQuery.Proofs.Sql.Length
import ExtendedQuery.Proofs.Sql.Rendered
import ExtendedQuery.Proofs.Sql.SingleRow
import ExtendedQuery.Proofs.Sql.Statements
import ExtendedQuery.Proofs.Wire.Descriptions
import ExtendedQuery.Proofs.Wire.Reports
import ExtendedQuery.Text.Utf8
